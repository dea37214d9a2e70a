/-!
# Ordered forests

An ordered forest is a sequence of trees; a tree is a value with the forest of its children.
Walks through a forest are in pre-order: a value comes before its children, and these before
the trees that follow. Depths are positional, zero for the roots and one more with each
level, and are 32-bit words like the depths that are recorded.
-/

namespace RunTrace

/-- An ordered forest: no tree, or the value and the children of the first tree and the trees
behind it. -/
inductive Forest (α : Type) where
  | nil
  | cons (value : α) (children rest : Forest α)
  deriving DecidableEq, BEq, Repr

/-- A value with the forest of its children. -/
structure Tree (α : Type) where
  /-- The value at the root. -/
  value : α
  /-- The trees below the root. -/
  children : Forest α
  deriving DecidableEq, BEq, Repr

namespace Forest

variable {α β : Type}

instance : Inhabited (Forest α) := ⟨nil⟩

/-- Whether there is no tree. -/
def isEmpty : Forest α → Bool
  | nil => true
  | cons .. => false

/-- The trees of a forest. -/
def trees : Forest α → List (Tree α)
  | nil => []
  | cons a children rest => ⟨a, children⟩ :: rest.trees

/-- The forest of the given trees. -/
def ofTrees : List (Tree α) → Forest α
  | [] => nil
  | tree :: trees => cons tree.value tree.children (ofTrees trees)

@[simp]
theorem ofTrees_trees (forest : Forest α) : ofTrees forest.trees = forest := by
  induction forest with
  | nil => rfl
  | cons a children rest _ ih => simp [trees, ofTrees, ih]

@[simp]
theorem trees_ofTrees (trees : List (Tree α)) : (ofTrees trees).trees = trees := by
  induction trees with
  | nil => rfl
  | cons tree trees ih => simp [Forest.trees, ofTrees, ih]

/-- The number of trees. -/
def length : Forest α → Nat
  | nil => 0
  | cons _ _ rest => rest.length + 1

@[simp]
theorem length_trees (forest : Forest α) : forest.trees.length = forest.length := by
  induction forest with
  | nil => rfl
  | cons a children rest _ ih => simp [trees, length, ih]

/-- The number of values. -/
def size : Forest α → Nat
  | nil => 0
  | cons _ children rest => 1 + children.size + rest.size

/-- The number of levels. -/
def height : Forest α → Nat
  | nil => 0
  | cons _ children rest => max (children.height + 1) rest.height

/-- The trees at all places of the forest in pre-order, each with its depth; the roots are at
the given depth. -/
def preorder (depth : UInt32) : Forest α → List (UInt32 × Tree α)
  | nil => []
  | cons a children rest =>
    (depth, ⟨a, children⟩) :: (children.preorder (depth + 1) ++ rest.preorder depth)

@[simp]
theorem length_preorder (depth : UInt32) (forest : Forest α) :
    (forest.preorder depth).length = forest.size := by
  induction forest generalizing depth with
  | nil => rfl
  | cons a children rest ihc ihr => simp [preorder, size, ihc, ihr]; omega

/-- The trees at all places of the forest in pre-order. -/
def subtrees : Forest α → List (Tree α)
  | nil => []
  | cons a children rest => ⟨a, children⟩ :: (children.subtrees ++ rest.subtrees)

@[simp]
theorem map_snd_preorder (depth : UInt32) (forest : Forest α) :
    (forest.preorder depth).map (·.2) = forest.subtrees := by
  induction forest generalizing depth with
  | nil => rfl
  | cons a children rest ihc ihr => simp [preorder, subtrees, ihc, ihr]

/-- The values in pre-order. -/
def toList : Forest α → List α
  | nil => []
  | cons a children rest => a :: (children.toList ++ rest.toList)

@[simp]
theorem map_value_subtrees (forest : Forest α) :
    forest.subtrees.map (·.value) = forest.toList := by
  induction forest with
  | nil => rfl
  | cons a children rest ihc ihr => simp [subtrees, toList, ihc, ihr]

/-- The tree at a place, which is given by the number of trees to pass by on each level. -/
def at? : Forest α → List Nat → Option (Tree α)
  | nil, _ => none
  | cons _ _ _, [] => none
  | cons a children _, [0] => some ⟨a, children⟩
  | cons _ children _, 0 :: path => children.at? path
  | cons _ _ rest, (n + 1) :: path => rest.at? (n :: path)

end Forest

namespace Tree

variable {α : Type}

/-- Whether anything is below the root. -/
def hasChildren (tree : Tree α) : Bool :=
  !tree.children.isEmpty

/-- The number of values below the root. -/
def descendantCount (tree : Tree α) : Nat :=
  tree.children.size

end Tree

end RunTrace
