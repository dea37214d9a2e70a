import RunTrace.Forest

/-!
# Walks in steps

A walk through a forest that yields one tree at a time and can stop between any two. It keeps
the trees that are still to be visited in a stack: when a tree is yielded its children are
put in front of all others. Main statement: run to its end, such a walk yields the pre-order
(`toList_start`).
-/

namespace RunTrace

/-- A walk under way. -/
structure Walk (α : Type) where
  /-- The trees still to be visited with all that is below them, the next one first. -/
  pending : List (UInt32 × Tree α)

namespace Walk

variable {α : Type}

/-- The walk that is about to visit the first tree of a forest. -/
def start (forest : Forest α) : Walk α :=
  ⟨forest.trees.map (0, ·)⟩

/-- The next tree with its depth, and the walk behind it. -/
def next? (walk : Walk α) : Option ((UInt32 × Tree α) × Walk α) :=
  match walk.pending with
  | [] => none
  | (depth, tree) :: rest =>
    some ((depth, tree), ⟨tree.children.trees.map (depth + 1, ·) ++ rest⟩)

/-- What is yielded comes from the top of the stack, and its children take its place. -/
theorem exists_of_next? {walk next : Walk α} {item : UInt32 × Tree α}
    (h : walk.next? = some (item, next)) :
    ∃ rest, walk.pending = item :: rest ∧
      next.pending = item.2.children.trees.map (item.1 + 1, ·) ++ rest := by
  obtain ⟨pending⟩ := walk
  cases pending with
  | nil => exact nomatch h
  | cons head rest =>
    obtain ⟨rfl, rfl⟩ := Prod.mk.inj (Option.some.inj h)
    exact ⟨rest, rfl, rfl⟩

/-- The number of trees in a stack, with all that is below them. -/
def stackSize : List (UInt32 × Tree α) → Nat
  | [] => 0
  | (_, tree) :: rest => 1 + tree.descendantCount + stackSize rest

/-- The number of trees that are still to be yielded. -/
def remaining (walk : Walk α) : Nat :=
  stackSize walk.pending

theorem stackSize_append (above below : List (UInt32 × Tree α)) :
    stackSize (above ++ below) = stackSize above + stackSize below := by
  induction above with
  | nil => simp [stackSize]
  | cons item above ih =>
    simp only [List.cons_append, stackSize, ih]
    omega

theorem stackSize_trees (forest : Forest α) (depth : UInt32) :
    stackSize (forest.trees.map (depth, ·)) = forest.size := by
  induction forest with
  | nil => rfl
  | cons a children rest _ ih =>
    simp only [Forest.trees, List.map_cons, stackSize, Forest.size, Tree.descendantCount] at *
    omega

/-- Each step leaves one tree less to be yielded. -/
theorem remaining_next {walk next : Walk α} {item : UInt32 × Tree α}
    (h : walk.next? = some (item, next)) : next.remaining + 1 = walk.remaining := by
  obtain ⟨rest, hpending, hnext⟩ := exists_of_next? h
  have hchildren := stackSize_trees item.2.children (item.1 + 1)
  rw [remaining, remaining, hpending, hnext, stackSize_append, hchildren, stackSize,
    Tree.descendantCount]
  omega

/-- All that a walk still yields. -/
def toList (walk : Walk α) : List (UInt32 × Tree α) :=
  match h : walk.next? with
  | none => []
  | some (item, next) =>
    have := remaining_next h
    item :: next.toList
termination_by walk.remaining

@[simp]
theorem toList_nil : (⟨[]⟩ : Walk α).toList = [] := by
  rw [toList]
  rfl

theorem toList_cons (depth : UInt32) (tree : Tree α) (rest : List (UInt32 × Tree α)) :
    (⟨(depth, tree) :: rest⟩ : Walk α).toList =
      (depth, tree) :: (⟨tree.children.trees.map (depth + 1, ·) ++ rest⟩ : Walk α).toList := by
  rw [toList]
  rfl

/-- The trees of a forest in front of a stack are walked through in pre-order before anything
else in the stack is visited. -/
theorem toList_trees_append (forest : Forest α) (depth : UInt32)
    (rest : List (UInt32 × Tree α)) :
    (⟨forest.trees.map (depth, ·) ++ rest⟩ : Walk α).toList =
      forest.preorder depth ++ (⟨rest⟩ : Walk α).toList := by
  induction forest generalizing depth rest with
  | nil => rfl
  | cons a children others ihc ihr =>
    rw [Forest.trees, List.map_cons, List.cons_append, toList_cons, ihc, ihr, Forest.preorder,
      List.cons_append, List.append_assoc]

/-- A walk from the first tree of a forest to its end is the pre-order of the forest. -/
@[simp]
theorem toList_start (forest : Forest α) : (start forest).toList = forest.preorder 0 := by
  simpa [start] using toList_trees_append forest 0 []

end Walk

end RunTrace
