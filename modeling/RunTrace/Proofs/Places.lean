import RunTrace.Forest

/-!
# Places in a forest

`Forest.at?` finds the tree at a place, and walks list the trees without their places. Here the
two are brought together: `Forest.placed` lists the trees of a forest in pre-order, each with
its place.

## Main results

* `Forest.mem_placed`: a place is listed with a tree exactly if the tree is found there;
* `Forest.nodup_places`: no place is listed twice;
* `Forest.preorder_eq_map_placed`: without the places, the list is the walk through the forest,
  in which the depth of a tree is the number of levels above its place.
-/

namespace RunTrace.Forest

variable {α : Type}

/-- The place in a forest of what is at a place of the trees behind its first one. -/
def passFirst : List Nat → List Nat
  | [] => []
  | n :: path => (n + 1) :: path

@[simp]
theorem length_passFirst (place : List Nat) : (passFirst place).length = place.length := by
  cases place <;> rfl

theorem passFirst_injective {p q : List Nat} (h : passFirst p = passFirst q) : p = q := by
  cases p <;> cases q <;> simp_all [passFirst]

/-- The trees of a forest in pre-order, each with its place. -/
def placed : Forest α → List (List Nat × Tree α)
  | nil => []
  | cons a children rest =>
    ([0], ⟨a, children⟩) :: (children.placed.map (Prod.map (0 :: ·) id) ++
      rest.placed.map (Prod.map passFirst id))

/-! ## Finding the tree at a place -/

@[simp]
theorem at?_empty (forest : Forest α) : forest.at? [] = none := by
  cases forest <;> rfl

@[simp]
theorem at?_first (a : α) (children rest : Forest α) :
    (cons a children rest).at? [0] = some ⟨a, children⟩ := rfl

/-- Below the first tree, places are those of its children. -/
theorem at?_below_first (a : α) (children rest : Forest α) {place : List Nat}
    (h : place ≠ []) : (cons a children rest).at? (0 :: place) = children.at? place := by
  cases place with
  | nil => exact absurd rfl h
  | cons n path => rfl

/-- Behind the first tree, places are those of the other trees. -/
@[simp]
theorem at?_passFirst (a : α) (children rest : Forest α) (place : List Nat) :
    (cons a children rest).at? (passFirst place) = rest.at? place := by
  cases place with
  | nil => simp [passFirst]
  | cons n path => rfl

theorem ne_nil_of_at? {forest : Forest α} {place : List Nat} {tree : Tree α}
    (h : forest.at? place = some tree) : place ≠ [] := by
  rintro rfl
  simp at h

/-- Above every place there is another one on each level. -/
theorem exists_at?_take {forest : Forest α} {place : List Nat} {tree : Tree α}
    (h : forest.at? place = some tree) {levels : Nat} (hlevels : 0 < levels) :
    ∃ ancestor, forest.at? (place.take levels) = some ancestor := by
  induction forest generalizing place levels with
  | nil => simp [at?] at h
  | cons a children rest ihc ihr =>
    obtain ⟨levels, rfl⟩ : ∃ n, levels = n + 1 := ⟨levels - 1, by omega⟩
    -- The first step of a place says which part of the forest it is in: the cases follow `at?`.
    match place, h with
    | [0], _ => exact ⟨⟨a, children⟩, by simp⟩
    | 0 :: n :: path, h =>
      cases levels with
      | zero => exact ⟨⟨a, children⟩, rfl⟩
      | succ levels =>
        have below : children.at? (n :: path) = some tree := h
        exact ihc below (Nat.succ_pos levels)
    | (n + 1) :: path, h =>
      have behind : rest.at? (n :: path) = some tree := h
      exact ihr behind (Nat.succ_pos levels)

/-- What is below a place of the forest is found among the children of the tree there. -/
theorem at?_of_at?_take {forest : Forest α} {place : List Nat} {ancestor : Tree α}
    {levels : Nat} (h : forest.at? (place.take levels) = some ancestor)
    (hlevels : levels < place.length) :
    forest.at? place = ancestor.children.at? (place.drop levels) := by
  induction forest generalizing place levels with
  | nil => simp [at?] at h
  | cons a children rest ihc ihr =>
    match place, levels, h with
    | [], levels, h => simp at hlevels
    | n :: path, 0, h => simp at h
    -- Cut behind its first step, the place leads to the first tree itself.
    | 0 :: path, 1, h =>
      obtain rfl : (⟨a, children⟩ : Tree α) = ancestor := by simpa using h
      exact at?_below_first a children rest (by rintro rfl; simp at hlevels)
    | 0 :: n :: path, levels + 2, h =>
      have below : children.at? ((n :: path).take (levels + 1)) = some ancestor := h
      exact ihc below (by simpa using hlevels)
    | (n + 1) :: path, levels + 1, h =>
      have behind : rest.at? ((n :: path).take (levels + 1)) = some ancestor := h
      exact ihr behind (by simpa using hlevels)

/-- Below a tree of the forest, places are those of its children. -/
theorem at?_append {forest : Forest α} {place path : List Nat} {tree : Tree α}
    (h : forest.at? place = some tree) (hpath : path ≠ []) :
    forest.at? (place ++ path) = tree.children.at? path := by
  have htake : forest.at? ((place ++ path).take place.length) = some tree := by
    rwa [List.take_left]
  rw [at?_of_at?_take htake (by simpa using List.length_pos_iff.2 hpath), List.drop_left]

/-- The trees of a forest are at places of one step. -/
theorem exists_at?_of_mem_trees {forest : Forest α} {tree : Tree α} (h : tree ∈ forest.trees) :
    ∃ n, forest.at? [n] = some tree := by
  induction forest with
  | nil => exact absurd h List.not_mem_nil
  | cons a children rest _ ihr =>
    rcases List.mem_cons.1 h with rfl | h
    · exact ⟨0, rfl⟩
    · obtain ⟨n, hn⟩ := ihr h
      exact ⟨n + 1, hn⟩

/-- A tree has children if anything is found among them. -/
theorem hasChildren_of_at? {parent tree : Tree α} {place : List Nat}
    (h : parent.children.at? place = some tree) : parent.hasChildren = true := by
  obtain ⟨a, children⟩ := parent
  cases children with
  | nil => simp [at?] at h
  | cons => rfl

/-- What is above a place of the forest has children. -/
theorem hasChildren_of_at?_take {forest : Forest α} {place : List Nat} {tree ancestor : Tree α}
    (htree : forest.at? place = some tree) {levels : Nat}
    (h : forest.at? (place.take levels) = some ancestor) (hlevels : levels < place.length) :
    ancestor.hasChildren = true := by
  rw [at?_of_at?_take h hlevels] at htree
  exact hasChildren_of_at? htree

/-! ## The listing -/

theorem at?_of_mem_placed {forest : Forest α} {place : List Nat} {tree : Tree α}
    (h : (place, tree) ∈ forest.placed) : forest.at? place = some tree := by
  induction forest generalizing place with
  | nil => simp [placed] at h
  | cons a children rest ihc ihr =>
    simp only [placed, List.mem_cons, List.mem_append, List.mem_map, Prod.map, id] at h
    rcases h with h | ⟨⟨path, below⟩, hmem, heq⟩ | ⟨⟨path, behind⟩, hmem, heq⟩
    · obtain ⟨rfl, rfl⟩ := Prod.mk.inj h
      rfl
    · obtain ⟨rfl, rfl⟩ := Prod.mk.inj heq
      rw [at?_below_first _ _ _ (ne_nil_of_at? (ihc hmem))]
      exact ihc hmem
    · obtain ⟨rfl, rfl⟩ := Prod.mk.inj heq
      rw [at?_passFirst]
      exact ihr hmem

theorem mem_placed_of_at? {forest : Forest α} {place : List Nat} {tree : Tree α}
    (h : forest.at? place = some tree) : (place, tree) ∈ forest.placed := by
  induction forest generalizing place with
  | nil => simp [at?] at h
  | cons a children rest ihc ihr =>
    simp only [placed, List.mem_cons, List.mem_append, List.mem_map, Prod.map, id]
    match place, h with
    -- The root of the first tree, a place below it, or a place behind it.
    | [0], h => exact .inl (by simpa using h.symm)
    | 0 :: n :: path, h =>
      exact .inr (.inl ⟨(n :: path, tree), ihc h, rfl⟩)
    | (n + 1) :: path, h =>
      exact .inr (.inr ⟨(n :: path, tree), ihr h, rfl⟩)

/-- A place is listed with a tree exactly if the tree is found there. -/
theorem mem_placed {forest : Forest α} {place : List Nat} {tree : Tree α} :
    (place, tree) ∈ forest.placed ↔ forest.at? place = some tree :=
  ⟨at?_of_mem_placed, mem_placed_of_at?⟩

theorem ne_nil_of_mem_placed {forest : Forest α} {item : List Nat × Tree α}
    (h : item ∈ forest.placed) : item.1 ≠ [] :=
  ne_nil_of_at? (mem_placed.1 h)

theorem nodup_places (forest : Forest α) : (forest.placed.map (·.1)).Nodup := by
  induction forest with
  | nil => exact .nil
  | cons a children rest ihc ihr =>
    have below : (children.placed.map (·.1)).map (0 :: ·) =
        (children.placed.map (Prod.map (0 :: ·) id)).map (·.1) := by simp
    have behind : (rest.placed.map (·.1)).map passFirst =
        (rest.placed.map (Prod.map passFirst id)).map (·.1) := by simp
    have nodup_below : ((children.placed.map (·.1)).map (0 :: ·)).Nodup :=
      List.Pairwise.map _ (fun p q hne heq => hne (List.cons.inj heq).2) ihc
    have nodup_behind : ((rest.placed.map (·.1)).map passFirst).Nodup :=
      List.Pairwise.map _ (fun p q hne heq => hne (passFirst_injective heq)) ihr
    rw [placed, List.map_cons, List.map_append, ← below, ← behind, List.nodup_cons,
      List.nodup_append]
    -- The first place has no step below it, and only places of the first tree begin with a zero.
    refine ⟨fun hmem => ?_, nodup_below, nodup_behind, fun p hp q hq heq => ?_⟩
    · rcases List.mem_append.1 hmem with hmem | hmem
      · obtain ⟨path, hpath, heq⟩ := List.mem_map.1 hmem
        obtain ⟨item, hitem, rfl⟩ := List.mem_map.1 hpath
        exact ne_nil_of_mem_placed hitem (List.cons.inj heq).2
      · obtain ⟨path, -, heq⟩ := List.mem_map.1 hmem
        cases path <;> simp [passFirst] at heq
    · obtain ⟨path, -, rfl⟩ := List.mem_map.1 hp
      obtain ⟨other, -, rfl⟩ := List.mem_map.1 hq
      cases other <;> simp [passFirst] at heq

/-- The trees at places on the first level are those of the forest. -/
theorem map_snd_filter_placed (forest : Forest α) :
    (forest.placed.filter (·.1.length = 1)).map (·.2) = forest.trees := by
  induction forest with
  | nil => rfl
  | cons a children rest _ ihr =>
    -- What is below the first tree has a place of two steps at least.
    have below : children.placed.filter (fun item => (0 :: item.1).length = 1) = [] := by
      refine List.filter_eq_nil_iff.2 fun item hitem => ?_
      simpa using ne_nil_of_mem_placed hitem
    rw [trees, placed, List.filter_cons_of_pos (by simp), List.filter_append, List.filter_map,
      List.filter_map, List.map_cons, List.map_append, List.map_map, List.map_map]
    simp only [Function.comp_def, Prod.map, id, length_passFirst, below]
    rw [List.map_nil, List.nil_append, ihr]

/-! ## Levels -/

/-- The depth of a place, as a word, in a forest whose roots are at a depth. -/
def depthAt (depth : UInt32) (place : List Nat) : UInt32 :=
  depth + UInt32.ofNat (place.length - 1)

theorem depthAt_below_first (depth : UInt32) {place : List Nat} (h : place ≠ []) :
    depthAt depth (0 :: place) = depthAt (depth + 1) place := by
  have hpos := List.length_pos_iff.2 h
  rw [depthAt, depthAt, UInt32.add_assoc, show (1 : UInt32) = UInt32.ofNat 1 from rfl,
    ← UInt32.ofNat_add, Nat.add_sub_cancel' hpos, List.length_cons, Nat.add_sub_cancel]

@[simp]
theorem depthAt_passFirst (depth : UInt32) (place : List Nat) :
    depthAt depth (passFirst place) = depthAt depth place := by
  rw [depthAt, length_passFirst, depthAt]

/-- In a forest that is not too high, the depth of a place is the number of levels above it. -/
theorem toNat_depthAt_zero {place : List Nat} (h : place.length ≤ UInt32.size) :
    (depthAt 0 place).toNat = place.length - 1 := by
  rw [depthAt, UInt32.zero_add, UInt32.toNat_ofNat_of_lt']
  unfold UInt32.size at h ⊢
  omega

/-- A place has at most as many levels as the forest. -/
theorem length_le_height {forest : Forest α} {place : List Nat} {tree : Tree α}
    (h : forest.at? place = some tree) : place.length ≤ forest.height := by
  induction forest generalizing place with
  | nil => simp [at?] at h
  | cons a children rest ihc ihr =>
    rw [height]
    match place, h with
    | [0], _ => exact Nat.le_trans (Nat.le_add_left 1 _) (Nat.le_max_left _ _)
    | 0 :: n :: path, h =>
      have below : (n :: path).length ≤ children.height := ihc h
      rw [List.length_cons]
      omega
    | (n + 1) :: path, h =>
      have behind : (n :: path).length ≤ rest.height := ihr h
      rw [List.length_cons] at behind ⊢
      omega

/-- In a forest that is not too high, the depth of a place with a tree is the number of levels above
it. -/
theorem toNat_depthAt_of_at? {forest : Forest α} (height : forest.height < UInt32.size)
    {place : List Nat} {tree : Tree α} (h : forest.at? place = some tree) :
    (depthAt 0 place).toNat = place.length - 1 := by
  have hlength := length_le_height h
  exact toNat_depthAt_zero (by omega)

/-- Some place has as many levels as the forest. -/
theorem exists_length_eq_height {forest : Forest α} (h : 0 < forest.height) :
    ∃ place tree, forest.at? place = some tree ∧ place.length = forest.height := by
  induction forest with
  | nil => exact absurd h (Nat.lt_irrefl 0)
  | cons a children rest ihc ihr =>
    rw [height]
    -- The longest place is behind the first tree, or else at it or below it.
    by_cases hhigher : children.height + 1 < rest.height
    · obtain ⟨place, tree, hplace, hlength⟩ := ihr (by omega)
      refine ⟨passFirst place, tree, ?_, ?_⟩
      · rw [at?_passFirst, hplace]
      · rw [length_passFirst, hlength]
        omega
    · by_cases hleaf : children.height = 0
      · refine ⟨[0], ⟨a, children⟩, rfl, ?_⟩
        rw [List.length_singleton]
        omega
      · obtain ⟨place, tree, hplace, hlength⟩ := ihc (by omega)
        refine ⟨0 :: place, tree, ?_, ?_⟩
        · rw [at?_below_first _ _ _ (ne_nil_of_at? hplace), hplace]
        · rw [List.length_cons, hlength]
          omega

/-- A forest has at most as many levels as its places. -/
theorem height_le {forest : Forest α} {levels : Nat}
    (h : ∀ place tree, forest.at? place = some tree → place.length ≤ levels) :
    forest.height ≤ levels := by
  by_cases hempty : forest.height = 0
  · rw [hempty]
    exact Nat.zero_le levels
  · obtain ⟨place, tree, hplace, hlength⟩ := exists_length_eq_height (Nat.pos_of_ne_zero hempty)
    rw [← hlength]
    exact h place tree hplace

/-- The walk through a forest lists the trees in the order of their places, each with the depth
of its place. -/
theorem preorder_eq_map_placed (forest : Forest α) (depth : UInt32) :
    forest.preorder depth =
      forest.placed.map fun (place, tree) => (depthAt depth place, tree) := by
  induction forest generalizing depth with
  | nil => rfl
  | cons a children rest ihc ihr =>
    simp only [preorder, placed, ihc, ihr, List.map_cons, List.map_append, List.map_map]
    -- The same three parts on either side; only the depths have to be compared.
    congr 2
    · simp [depthAt]
    · refine List.map_congr_left fun item hitem => ?_
      simp [depthAt_below_first depth (ne_nil_of_mem_placed hitem)]
    · refine List.map_congr_left fun item _ => ?_
      simp

end RunTrace.Forest
