import RunTrace.Proofs.HiddenSubcalls

/-!
# The order of the walk

A walk goes on from one step to the next and keeps its own record of what is still to be visited.
Here the steps are followed to the end of the walk, and the list of all that is visited is compared
with the forest: it is the recursive pre-order, each place is in it once, and what is below a place
is the block of the list that comes right behind it.

## Main results

* `Walk.yields_iff`: every walk comes to its end, in one way only;
* `Forest.goesOn_of_placed`: behind an item of the pre-order comes what is below it, and then
  something on its own level or above, if anything;
* `Forest.between_iff`: the places below a place are those at the positions of this block;
* `walk_start_yields`: all of this for the walk through a trajectory.
-/

namespace RunTrace

variable {α : Type}

/-! ## Steps -/

namespace Walk

/-- Asked for the next item again and again, a walk yields these items and then no other. -/
inductive Yields : Walk α → List (UInt32 × Tree α) → Prop where
  | done {walk : Walk α} (h : walk.next? = none) : Yields walk []
  | more {walk next : Walk α} {item : UInt32 × Tree α} {items : List (UInt32 × Tree α)}
      (h : walk.next? = some (item, next)) (rest : Yields next items) : Yields walk (item :: items)

theorem toList_of_next?_eq_none {walk : Walk α} (h : walk.next? = none) : walk.toList = [] := by
  rw [toList]
  split
  · rfl
  · next item next hnext => rw [h] at hnext; contradiction

theorem toList_of_next?_eq_some {walk next : Walk α} {item : UInt32 × Tree α}
    (h : walk.next? = some (item, next)) : walk.toList = item :: next.toList := by
  rw [toList]
  split
  · next hnone => rw [h] at hnone; contradiction
  · next found following hnext =>
    obtain ⟨rfl, rfl⟩ := Prod.mk.inj (Option.some.inj (hnext.symm.trans h))
    rfl

/-- Every walk comes to its end, and what it yields is all that it had still to visit. -/
theorem yields_iff (walk : Walk α) (items : List (UInt32 × Tree α)) :
    walk.Yields items ↔ items = walk.toList := by
  constructor
  · intro h
    induction h with
    | done h => rw [toList_of_next?_eq_none h]
    | more h _ ih => rw [toList_of_next?_eq_some h, ih]
  · rintro rfl
    induction walk using toList.induct with
    | case1 walk h => exact toList_of_next?_eq_none h ▸ .done h
    | case2 walk item next h _ ih => exact toList_of_next?_eq_some h ▸ .more h ih

end Walk

/-! ## Blocks -/

namespace Forest

@[simp]
theorem length_placed (forest : Forest α) : forest.placed.length = forest.size := by
  induction forest with
  | nil => rfl
  | cons a children rest ihc ihr =>
    simp only [placed, size, List.length_cons, List.length_append, List.length_map, ihc, ihr]
    omega

theorem length_placedBelow (item : List Nat × Tree α) :
    (placedBelow item).length = item.2.descendantCount := by
  rw [placedBelow, List.length_map, length_placed, Tree.descendantCount]

/-- The number of values is that of the trees, each with all that is below it. -/
theorem size_eq_sum (forest : Forest α) :
    forest.size = (forest.trees.map fun tree => 1 + tree.descendantCount).sum := by
  induction forest with
  | nil => rfl
  | cons a children rest _ ih =>
    rw [size, trees, List.map_cons, List.sum_cons, ← ih, Tree.descendantCount]

/-- The first place, if there is one, is that of a root. -/
theorem length_of_mem_head?_placed {forest : Forest α} {item : List Nat × Tree α}
    (h : item ∈ forest.placed.head?) : item.1.length = 1 := by
  cases forest with
  | nil => simp [placed] at h
  | cons a children rest =>
    obtain rfl := Option.some.inj h
    rfl

/-- A list in pre-order goes on behind an item with all that is below it, and then with something on
its own level or above, if with anything. -/
def GoesOn (item : List Nat × Tree α) (behind : List (List Nat × Tree α)) : Prop :=
  ∃ others, behind = placedBelow item ++ others ∧
    ∀ other ∈ others.head?, other.1.length ≤ item.1.length

/-- If the trees of a forest are moved to other places together with what is below them, then the
list goes on as before. -/
theorem GoesOn.of_map {forest : Forest α} {step : List Nat → List Nat}
    (hbelow : ∀ item ∈ forest.placed, placedBelow (step item.1, item.2) =
      (placedBelow item).map (Prod.map step id))
    (hlength : ∀ p q : List Nat, p.length ≤ q.length → (step p).length ≤ (step q).length)
    (ih : ∀ {front behind item}, forest.placed = front ++ item :: behind → GoesOn item behind)
    {front behind : List (List Nat × Tree α)} {item : List Nat × Tree α}
    (h : forest.placed.map (Prod.map step id) = front ++ item :: behind) : GoesOn item behind := by
  obtain ⟨front, tail, hplaced, rfl, htail⟩ := List.map_eq_append_iff.1 h
  obtain ⟨item, behind, rfl, rfl, rfl⟩ := List.map_eq_cons_iff.1 htail
  obtain ⟨others, rfl, hothers⟩ := ih hplaced
  have hitem : item ∈ forest.placed := by
    rw [hplaced]
    exact List.mem_append_right _ List.mem_cons_self
  refine ⟨others.map (Prod.map step id), ?_, fun other hother => ?_⟩
  · rw [List.map_append, ← hbelow item hitem]
    rfl
  · rw [List.head?_map] at hother
    obtain ⟨inner, hinner, rfl⟩ := Option.map_eq_some_iff.1 hother
    exact hlength _ _ (hothers inner hinner)

/-- Behind an item of the pre-order comes all that is below it, and then something on its own level
or above, if anything. -/
theorem goesOn_of_placed {forest : Forest α} {front behind : List (List Nat × Tree α)}
    {item : List Nat × Tree α} (h : forest.placed = front ++ item :: behind) :
    GoesOn item behind := by
  induction forest generalizing front behind item with
  | nil => simp [placed] at h
  | cons a children rest ihc ihr =>
    have hroot : ∀ other ∈ (rest.placed.map (Prod.map passFirst id)).head?,
        other.1.length = 1 := by
      intro other hother
      rw [List.head?_map] at hother
      obtain ⟨root, hroot, rfl⟩ := Option.map_eq_some_iff.1 hother
      rw [Prod.map_fst, length_passFirst, length_of_mem_head?_placed hroot]
    have hrest : ∀ {front}, rest.placed.map (Prod.map passFirst id) = front ++ item :: behind →
        GoesOn item behind :=
      GoesOn.of_map (fun item hitem => placedBelow_passFirst (ne_nil_of_mem_placed hitem) _)
        (by simp) ihr
    rw [placed, List.cons_eq_append_iff] at h
    rcases h with ⟨rfl, h⟩ | ⟨front, rfl, h⟩
    · -- The item is the first root: its children follow, and then the other roots.
      obtain ⟨rfl, rfl⟩ := List.cons.inj h
      exact ⟨_, rfl, fun other hother => (hroot other hother).le⟩
    · rcases List.append_eq_append_iff.1 h with ⟨more, -, hbehind⟩ | ⟨below, hchildren, hbehind⟩
      · exact hrest hbehind
      · rcases List.cons_eq_append_iff.1 hbehind with ⟨-, hbehind⟩ | ⟨below, rfl, rfl⟩
        · exact @hrest [] hbehind
        · -- The item is below the first root, and the other roots come behind all of that.
          obtain ⟨others, rfl, hothers⟩ := GoesOn.of_map
            (fun item _ => placedBelow_below_first item.1 item.2) (by simp) ihc hchildren
          refine ⟨others ++ rest.placed.map (Prod.map passFirst id), List.append_assoc .., ?_⟩
          intro other hother
          cases others with
          | nil =>
            have hitem : item ∈ children.placed.map (Prod.map (0 :: ·) id) := by
              rw [hchildren]
              exact List.mem_append_right _ List.mem_cons_self
            obtain ⟨inner, -, rfl⟩ := List.mem_map.1 hitem
            rw [hroot other hother]
            exact Nat.succ_pos _
          | cons => exact hothers other hother

/-- The places below a place are those that begin with it and go on. -/
theorem mem_placedBelow {forest : Forest α} {item other : List Nat × Tree α}
    (hitem : item ∈ forest.placed) :
    other ∈ placedBelow item ↔
      other ∈ forest.placed ∧ item.1 <+: other.1 ∧ other.1 ≠ item.1 := by
  obtain ⟨place, tree⟩ := item
  obtain ⟨place', tree'⟩ := other
  have htree := mem_placed.1 hitem
  simp only [placedBelow, List.mem_map, Prod.map, id, Prod.mk.injEq, Prod.exists]
  constructor
  · rintro ⟨path, below, hbelow, rfl, rfl⟩
    have hpath := ne_nil_of_mem_placed hbelow
    refine ⟨mem_placed.2 ?_, List.prefix_append _ _, by simpa using hpath⟩
    rw [at?_append htree hpath]
    exact mem_placed.1 hbelow
  · rintro ⟨hother, ⟨path, rfl⟩, hne⟩
    have hpath : path ≠ [] := by rintro rfl; simp at hne
    refine ⟨path, tree', mem_placed.2 ?_, rfl, rfl⟩
    rw [← at?_append htree hpath]
    exact mem_placed.1 hother

/-- In the pre-order, what is at a position goes on with what is behind that position. -/
theorem goesOn_drop {forest : Forest α} {position : Nat} {item : List Nat × Tree α}
    (h : forest.placed[position]? = some item) :
    GoesOn item (forest.placed.drop (position + 1)) := by
  obtain ⟨hposition, rfl⟩ := List.getElem?_eq_some_iff.1 h
  have hsplit : forest.placed = forest.placed.take position ++
      forest.placed[position] :: forest.placed.drop (position + 1) := by
    rw [List.getElem_cons_drop, List.take_append_drop]
  exact goesOn_of_placed hsplit

/-- The places below a place are those at the positions right behind its own, as many of them as
there are descendants. -/
theorem between_iff {forest : Forest α} {position position' : Nat} {item other : List Nat × Tree α}
    (hitem : forest.placed[position]? = some item)
    (hother : forest.placed[position']? = some other) :
    item.1 <+: other.1 ∧ other.1 ≠ item.1 ↔
      position < position' ∧ position' ≤ position + item.2.descendantCount := by
  have hmem := List.mem_of_getElem? hother
  obtain ⟨others, hbehind, -⟩ := goesOn_drop hitem
  have hblock : ∀ step < item.2.descendantCount,
      forest.placed[position + 1 + step]? = (placedBelow item)[step]? := by
    intro step hstep
    rw [← List.getElem?_drop, hbehind, List.getElem?_append_left]
    rwa [length_placedBelow]
  have hbelow : item.1 <+: other.1 ∧ other.1 ≠ item.1 ↔ other ∈ placedBelow item := by
    rw [mem_placedBelow (List.mem_of_getElem? hitem), and_iff_right hmem]
  rw [hbelow]
  constructor
  · intro h
    obtain ⟨step, hstep, rfl⟩ := List.mem_iff_getElem.1 h
    rw [length_placedBelow] at hstep
    -- No place is listed twice, so this is the only position of the place.
    have hsame : forest.placed[position']? = forest.placed[position + 1 + step]? := by
      rw [hother, hblock step hstep, List.getElem?_eq_getElem]
    have hposition := (List.getElem?_inj (List.getElem?_eq_some_iff.1 hother).1
      (List.Nodup.of_map _ forest.nodup_places)).1 hsame
    omega
  · rintro ⟨hlt, hle⟩
    obtain ⟨step, rfl⟩ : ∃ step, position' = position + 1 + step :=
      ⟨position' - (position + 1), by omega⟩
    rw [hblock step (by omega)] at hother
    exact List.mem_of_getElem? hother

end Forest

/-! ## The whole trajectory -/

section Trajectory

variable {trajectory : Trajectory} (height : trajectory.subcalls.height < UInt32.size)
include height

/-- Behind a subcall the walk visits what is nested in it, in pre-order and deeper than the subcall
itself, and after that nothing that is deeper, if anything. -/
theorem walk_behind {position : Nat} {depth : UInt32} {subcall : Subcall}
    (h : trajectory.walk[position]? = some (depth, subcall)) :
    let below := (trajectory.walk.drop (position + 1)).take subcall.descendantCount
    below = subcall.children.preorder (depth + 1) ∧
      (∀ item ∈ below, depth.toNat < item.1.toNat) ∧
      ∀ item, trajectory.walk[position + 1 + subcall.descendantCount]? = some item →
        item.1.toNat ≤ depth.toNat := by
  intro below
  have hwalk := trajectory.walk_eq_preorder.trans
    (Forest.preorder_eq_map_placed trajectory.subcalls 0)
  rw [hwalk, List.getElem?_map, Option.map_eq_some_iff] at h
  obtain ⟨⟨place, tree⟩, hitem, heq⟩ := h
  obtain ⟨rfl, rfl⟩ := Prod.mk.inj heq
  have hmem := List.mem_of_getElem? hitem
  have hpos : 0 < place.length := List.length_pos_iff.2 (Forest.ne_nil_of_mem_placed hmem)
  have hdepth := Forest.toNat_depthAt_of_at? height (Forest.mem_placed.1 hmem)
  have hlength : (Forest.placedBelow (place, tree)).length = tree.descendantCount :=
    Forest.length_placedBelow (place, tree)
  obtain ⟨others, hbehind, hothers⟩ := Forest.goesOn_drop hitem
  have hbelow : below = (Forest.placedBelow (place, tree)).map
      fun item => (Forest.depthAt 0 item.1, item.2) := by
    unfold below
    rw [hwalk, ← List.map_drop, hbehind, ← List.map_take, List.take_left' hlength]
  refine ⟨?_, fun item hbelow' => ?_, fun item hnext => ?_⟩
  · rw [hbelow, Forest.map_depthAt_placedBelow 0 (Forest.ne_nil_of_mem_placed hmem)]
  · rw [hbelow] at hbelow'
    obtain ⟨other, hother, rfl⟩ := List.mem_map.1 hbelow'
    obtain ⟨hplaced, hbegins, hne⟩ := (Forest.mem_placedBelow hmem).1 hother
    have hlonger : place.length < other.1.length :=
      lt_of_le_of_ne hbegins.length_le fun heq => hne (hbegins.eq_of_length heq).symm
    change (Forest.depthAt 0 place).toNat < (Forest.depthAt 0 other.1).toNat
    rw [hdepth, Forest.toNat_depthAt_of_at? height (Forest.mem_placed.1 hplaced)]
    omega
  · rw [hwalk, List.getElem?_map, Option.map_eq_some_iff] at hnext
    obtain ⟨other, hother, rfl⟩ := hnext
    have hhead : others.head? = some other := by
      rw [← hother, ← List.getElem?_drop, hbehind, List.getElem?_append_right (by omega), hlength,
        Nat.sub_self, List.head?_eq_getElem?]
    have hle : other.1.length ≤ place.length := hothers other hhead
    change (Forest.depthAt 0 other.1).toNat ≤ (Forest.depthAt 0 place).toNat
    have hother' := Forest.mem_placed.1 (List.mem_of_getElem? hother)
    rw [hdepth, Forest.toNat_depthAt_of_at? height hother']
    omega

end Trajectory

/-- Asked for the next subcall again and again, the walk through a trajectory comes to its end, and
what it has yielded then is the recursive pre-order of the forest: each subcall has the number of
levels above it as its depth, and every place is there once. So there is one item for each root and
one for each of its descendants. The places below the one at a position are at as many positions
right behind it as the subcall has descendants; these are deeper than the subcall, and what comes
next, if anything, is not. -/
theorem walk_start_yields (trajectory : Trajectory)
    (height : trajectory.subcalls.height < UInt32.size) :
    let forest := trajectory.subcalls
    let walk := trajectory.walk
    (∀ items, (Walk.start forest).Yields items ↔ items = walk) ∧
      walk = forest.preorder 0 ∧
      walk.map (fun (depth, subcall) => (depth.toNat, subcall)) =
        forest.placed.map (fun (place, subcall) => (place.length - 1, subcall)) ∧
      (forest.placed.map (·.1)).Nodup ∧
      (∀ place subcall, (place, subcall) ∈ forest.placed ↔ forest.at? place = some subcall) ∧
      walk.length = (forest.trees.map fun root => 1 + root.descendantCount).sum ∧
      (∀ (position position' : Nat) (item other : List Nat × Subcall),
        forest.placed[position]? = some item → forest.placed[position']? = some other →
          (item.1 <+: other.1 ∧ other.1 ≠ item.1 ↔
            position < position' ∧ position' ≤ position + item.2.descendantCount)) ∧
      ∀ position depth subcall, walk[position]? = some (depth, subcall) →
        let below := (walk.drop (position + 1)).take subcall.descendantCount
        below = subcall.children.preorder (depth + 1) ∧
          (∀ item ∈ below, depth.toNat < item.1.toNat) ∧
          ∀ item, walk[position + 1 + subcall.descendantCount]? = some item →
            item.1.toNat ≤ depth.toNat := by
  intro forest walk
  have hwalk : walk = forest.preorder 0 := trajectory.walk_eq_preorder
  refine ⟨fun items => Walk.yields_iff _ items, hwalk, walk_eq_map_placed height,
    forest.nodup_places, fun place subcall => Forest.mem_placed, ?_,
    fun _ _ _ _ => Forest.between_iff, fun _ _ _ => walk_behind height⟩
  rw [hwalk, Forest.length_preorder, Forest.size_eq_sum]

/-- In the demo trajectory the eleven subcalls below `recurse-1` are visited right behind it, and
then the second root. -/
theorem walk_start_yields_demo :
    demoTrajectory.subcalls.height < UInt32.size ∧
      (Walk.start demoTrajectory.subcalls).Yields demoTrajectory.walk ∧
      demoTrajectory.walk.length = 16 ∧
      ∃ subcall, demoTrajectory.walk[3]? = some (1, subcall) ∧ subcall.value.id = "recurse-1" ∧
        subcall.descendantCount = 11 ∧
        (demoTrajectory.walk.drop 4).take 11 = subcall.children.preorder 2 ∧
        demoTrajectory.walk[15]?.map (fun (depth, subcall) => (depth, subcall.value.id)) =
          some (0, "followup") := by
  have height : demoTrajectory.subcalls.height < UInt32.size := by decide +kernel
  obtain ⟨hyields, -, -, -, -, hlength, -, hbehind⟩ := walk_start_yields demoTrajectory height
  have hfourth : demoTrajectory.walk[3]?.map
      (fun item => (item.1, item.2.value.id, item.2.descendantCount)) =
        some (1, "recurse-1", 11) := by decide +kernel
  obtain ⟨⟨depth, subcall⟩, hitem, heq⟩ := Option.map_eq_some_iff.1 hfourth
  simp only [Prod.mk.injEq] at heq
  obtain ⟨rfl, hid, hcount⟩ := heq
  obtain ⟨hbelow, -, -⟩ := hbehind 3 1 subcall hitem
  rw [hcount] at hbelow
  exact ⟨height, (hyields _).2 rfl, hlength.trans (by decide +kernel), subcall, hitem, hid, hcount,
    hbelow, by decide +kernel⟩

end RunTrace
