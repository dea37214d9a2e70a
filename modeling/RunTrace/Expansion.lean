import RunTrace.Trajectory

/-!
# Expansion

A record of which subcalls show their children and which show their tool calls, by id. Only
ids that show something are recorded, in the order of their code points, so two records that
show the same are equal.
-/

namespace RunTrace

/-- What a subcall shows. -/
structure Shown where
  /-- Whether its children are shown. -/
  children : Bool
  /-- Whether its tool calls are shown. -/
  tools : Bool
  deriving DecidableEq, Repr

namespace Shown

/-- A subcall that shows nothing. -/
def nothing : Shown := ⟨false, false⟩

/-- Whether anything is shown. -/
def any (shown : Shown) : Bool :=
  shown.children || shown.tools

end Shown

namespace Expansion

/-- An id with what the subcall of that id shows. -/
abbrev Entry := String × Shown

/-- The entry of an id in front of others, or no entry if nothing is shown. -/
def consShown (id : String) (shown : Shown) (entries : List Entry) : List Entry :=
  if shown.any then (id, shown) :: entries else entries

/-- Changes what an id shows in a list of entries that is ordered by id. -/
def updateEntries (id : String) (change : Shown → Shown) : List Entry → List Entry
  | [] => consShown id (change .nothing) []
  | (key, shown) :: rest =>
    -- Behind a larger id there can be no entry of `id`.
    if id < key then consShown id (change .nothing) ((key, shown) :: rest)
    else if id = key then consShown key (change shown) rest
    else (key, shown) :: updateEntries id change rest

/-- The entries are ordered by id, and each of them shows something. -/
def Canonical (entries : List Entry) : Prop :=
  entries.Pairwise (·.1 < ·.1) ∧ ∀ entry ∈ entries, entry.2.any = true

theorem canonical_nil : Canonical [] :=
  ⟨.nil, by simp⟩

theorem mem_consShown {id : String} {shown : Shown} {entries : List Entry} {entry : Entry}
    (h : entry ∈ consShown id shown entries) :
    (entry = (id, shown) ∧ shown.any = true) ∨ entry ∈ entries := by
  unfold consShown at h
  split at h
  · rcases List.mem_cons.1 h with rfl | h
    · exact .inl ⟨rfl, ‹_›⟩
    · exact .inr h
  · exact .inr h

theorem canonical_consShown {id : String} {shown : Shown} {entries : List Entry}
    (h : Canonical entries) (first : ∀ entry ∈ entries, id < entry.1) :
    Canonical (consShown id shown entries) := by
  refine ⟨?_, fun entry hentry => ?_⟩
  · unfold consShown
    split
    · exact .cons first h.1
    · exact h.1
  · rcases mem_consShown hentry with ⟨rfl, hany⟩ | hmem
    · exact hany
    · exact h.2 entry hmem

theorem mem_updateEntries {id : String} {change : Shown → Shown} {entries : List Entry}
    {entry : Entry} (h : entry ∈ updateEntries id change entries) :
    entry.1 = id ∨ entry ∈ entries := by
  induction entries with
  | nil =>
    rcases mem_consShown h with ⟨rfl, -⟩ | h
    · exact .inl rfl
    · exact .inr h
  | cons head rest ih =>
    obtain ⟨key, shown⟩ := head
    unfold updateEntries at h
    split at h
    · rcases mem_consShown h with ⟨rfl, -⟩ | h
      · exact .inl rfl
      · exact .inr h
    · split at h
      · rename_i heq
        rcases mem_consShown h with ⟨rfl, -⟩ | h
        · exact .inl heq.symm
        · exact .inr (List.mem_cons_of_mem _ h)
      · rcases List.mem_cons.1 h with rfl | h
        · exact .inr (List.mem_cons_self ..)
        · exact (ih h).imp_right (List.mem_cons_of_mem _)

theorem canonical_updateEntries (id : String) (change : Shown → Shown) {entries : List Entry}
    (h : Canonical entries) : Canonical (updateEntries id change entries) := by
  induction entries with
  | nil => exact canonical_consShown h (by simp)
  | cons head rest ih =>
    obtain ⟨key, shown⟩ := head
    have hrest : Canonical rest := ⟨h.1.of_cons, fun e he => h.2 e (List.mem_cons_of_mem _ he)⟩
    have hkey : ∀ entry ∈ rest, key < entry.1 := (List.pairwise_cons.1 h.1).1
    unfold updateEntries
    split
    · rename_i hlt
      refine canonical_consShown h fun entry hentry => ?_
      rcases List.mem_cons.1 hentry with rfl | hentry
      · exact hlt
      · exact String.lt_trans hlt (hkey entry hentry)
    · split
      · exact canonical_consShown hrest hkey
      · rename_i hlt hne
        refine ⟨.cons (fun entry hentry => ?_) (ih hrest).1, fun entry hentry => ?_⟩
        · rcases mem_updateEntries hentry with heq | hmem
          · rw [heq]
            exact Std.lt_of_le_of_ne (Std.not_lt.1 hlt) (Ne.symm hne)
          · exact hkey entry hmem
        · rcases List.mem_cons.1 hentry with rfl | hentry
          · exact h.2 _ (List.mem_cons_self ..)
          · exact (ih hrest).2 entry hentry

/-- Hides the children of all ids in a list of entries. -/
def hideChildren : List Entry → List Entry
  | [] => []
  | (key, shown) :: rest => consShown key { shown with children := false } (hideChildren rest)

theorem key_mem_of_mem_hideChildren {entries : List Entry} {entry : Entry}
    (h : entry ∈ hideChildren entries) : ∃ other ∈ entries, other.1 = entry.1 := by
  induction entries with
  | nil => simp [hideChildren] at h
  | cons head rest ih =>
    rcases mem_consShown h with ⟨rfl, -⟩ | h
    · exact ⟨head, List.mem_cons_self .., rfl⟩
    · obtain ⟨other, hmem, heq⟩ := ih h
      exact ⟨other, List.mem_cons_of_mem _ hmem, heq⟩

theorem canonical_hideChildren {entries : List Entry} (h : Canonical entries) :
    Canonical (hideChildren entries) := by
  induction entries with
  | nil => exact canonical_nil
  | cons head rest ih =>
    have hrest : Canonical rest := ⟨h.1.of_cons, fun e he => h.2 e (List.mem_cons_of_mem _ he)⟩
    refine canonical_consShown (ih hrest) fun entry hentry => ?_
    obtain ⟨other, hmem, heq⟩ := key_mem_of_mem_hideChildren hentry
    exact heq ▸ (List.pairwise_cons.1 h.1).1 other hmem

end Expansion

/-- Which subcalls show their children and their tool calls. -/
structure Expansion where
  /-- The ids that show something. -/
  entries : List Expansion.Entry
  /-- The entries are ordered, and each of them shows something. -/
  canonical : Expansion.Canonical entries
  deriving DecidableEq

namespace Expansion

/-- Nothing is shown. -/
def collapsed : Expansion :=
  ⟨[], canonical_nil⟩

/-- What the subcall with an id shows. -/
def shown (state : Expansion) (id : String) : Shown :=
  ((state.entries.find? (·.1 == id)).map (·.2)).getD .nothing

/-- Whether the subcall with an id shows its children. -/
def showsChildren (state : Expansion) (id : String) : Bool :=
  (state.shown id).children

/-- Whether the subcall with an id shows its tool calls. -/
def showsTools (state : Expansion) (id : String) : Bool :=
  (state.shown id).tools

/-- The ids of the subcalls that show their children, in order. -/
def childrenIds (state : Expansion) : List String :=
  (state.entries.filter (·.2.children)).map (·.1)

/-- The ids of the subcalls that show their tool calls, in order. -/
def toolsIds (state : Expansion) : List String :=
  (state.entries.filter (·.2.tools)).map (·.1)

/-- Changes what the subcall with an id shows. -/
def update (state : Expansion) (id : String) (change : Shown → Shown) : Expansion :=
  ⟨updateEntries id change state.entries, canonical_updateEntries id change state.canonical⟩

/-- Shows the children of a subcall if they are hidden and hides them if they are shown. A
subcall without children is left alone. -/
def toggleChildren (state : Expansion) (subcall : Subcall) : Expansion :=
  if subcall.hasChildren then
    state.update subcall.value.id fun shown => { shown with children := !shown.children }
  else state

/-- Shows the tool calls of a subcall if they are hidden and hides them if they are shown. A
subcall without tool calls is left alone. -/
def toggleTools (state : Expansion) (subcall : Subcall) : Expansion :=
  if subcall.value.hasToolCalls then
    state.update subcall.value.id fun shown => { shown with tools := !shown.tools }
  else state

/-- Hides the children of all subcalls. Tool calls that are shown stay so. -/
def collapseAll (state : Expansion) : Expansion :=
  ⟨hideChildren state.entries, canonical_hideChildren state.canonical⟩

/-- Shows the children of exactly the subcalls with the given ids. -/
def expandAll (state : Expansion) (ids : List String) : Expansion :=
  ids.foldl (fun state id => state.update id fun shown => { shown with children := true })
    state.collapseAll

/-- Forgets everything. -/
def reset (_ : Expansion) : Expansion :=
  collapsed

end Expansion

end RunTrace
