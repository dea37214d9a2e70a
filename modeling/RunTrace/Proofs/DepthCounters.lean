import RunTrace.Proofs.AuditTotals
import RunTrace.Proofs.Controls

/-!
# Depths are counted exactly

Depths are words, and each recursion through a forest adds one to a depth for every level that it
goes down. The recursions that display a trajectory or collect its ids go down only above the last
level, however high the forest is; the walk goes all the way down, but what has been read is not
high. So none of these additions wraps around, and a depth is the number of levels above a subcall.

The calls of a recursion are listed beside it (`Forest.visits`), each with its place and with the
depths of the calls that it is made from.

## Main results

* `expandableIds_eq_visits`, `toList_renderForest_eq_visits`: the ids that are collected and the
  rows that are displayed are those of the visits;
* `Forest.exact_of_mem_visits`: a recursion that stops at the last level counts its depths exactly;
* `Walk.Exact.of_reaches`: so does a walk, at each of its steps;
* `depths_exact`: both, for every bound and for every trajectory that is loaded.
-/

namespace RunTrace

/-! ## Recursions that stop -/

/-- A call of a recursion through a forest. -/
structure Visit (α : Type) where
  /-- The place that it is made for. -/
  place : List Nat
  /-- The depth that it is given. -/
  depth : UInt32
  /-- The depths that the calls around it were given, the innermost first. -/
  outer : List UInt32
  /-- The tree that it is given. -/
  tree : Tree α

namespace Visit

variable {α : Type}

/-- The depths that the calls in progress were given, this one first. -/
def calls (visit : Visit α) : List UInt32 :=
  visit.depth :: visit.outer

/-- The same call, for a forest in which its place is another one. -/
def moved (step : List Nat → List Nat) (visit : Visit α) : Visit α :=
  { visit with place := step visit.place }

end Visit

/-- The calls that a recursion makes for a forest, in order. For the children of a tree it calls
itself with the next depth, but only where it enters the tree. -/
def Forest.visits {α : Type} (enters : UInt32 → Tree α → Bool) (outer : List UInt32)
    (depth : UInt32) : Forest α → List (Visit α)
  | .nil => []
  | .cons a children rest =>
    { place := [0], depth, outer, tree := ⟨a, children⟩ } ::
      ((if enters depth ⟨a, children⟩ then
          (children.visits enters (depth :: outer) (depth + 1)).map (Visit.moved (0 :: ·))
        else []) ++
        (rest.visits enters outer depth).map (Visit.moved passFirst))

/-- Whether ids are collected from below a subcall. -/
def Subcall.collects (bound depth : UInt32) (subcall : Subcall) : Bool :=
  subcall.hasChildren && !isDepthLimited subcall depth bound

/-- Whether rows are nested in the row of a subcall. -/
def Subcall.opens (state : Expansion) (bound depth : UInt32) (subcall : Subcall) : Bool :=
  (Subcall.body state bound depth subcall).isExpanded

/-- The ids that are collected: those of a subcall and from below it, if any are, and those from
behind it. -/
theorem expandableIds_cons (bound depth : UInt32) (call : Call) (children rest : Forest Call) :
    expandableIds bound depth (.cons call children rest) =
      (if Subcall.collects bound depth ⟨call, children⟩ then
        call.id :: expandableIds bound (depth + 1) children else []) ++
      expandableIds bound depth rest := by
  rw [expandableIds, Subcall.collects]
  cases (Tree.mk call children).hasChildren <;>
    cases isDepthLimited ⟨call, children⟩ depth bound <;> rfl

/-- The ids that are collected are those of the subcalls that are entered. -/
theorem expandableIds_eq_visits (bound : UInt32) (outer : List UInt32) (depth : UInt32)
    (forest : Forest Call) :
    expandableIds bound depth forest =
      ((forest.visits (Subcall.collects bound) outer depth).filter fun visit =>
        Subcall.collects bound visit.depth visit.tree).map (·.tree.value.id) := by
  induction forest generalizing outer depth with
  | nil => rfl
  | cons call children rest ihc ihr =>
    rw [expandableIds_cons, ihc (depth :: outer) (depth + 1), ihr outer depth, Forest.visits,
      List.filter_cons]
    by_cases hentered : Subcall.collects bound depth ⟨call, children⟩ = true
    · simp [hentered, List.filter_map, Function.comp_def, Visit.moved]
    · simp [hentered, List.filter_map, Function.comp_def, Visit.moved]

/-- The rows that are displayed are those of the visits. -/
theorem toList_renderForest_eq_visits (state : Expansion) (bound : UInt32) (outer : List UInt32)
    (depth : UInt32) (forest : Forest Call) :
    (renderForest state bound depth forest).toList =
      (forest.visits (Subcall.opens state bound) outer depth).map fun visit =>
        Subcall.row state bound visit.depth visit.tree := by
  induction forest generalizing outer depth with
  | nil => rfl
  | cons call children rest ihc ihr =>
    have hbody : (Subcall.row state bound depth ⟨call, children⟩).body.isExpanded =
        Subcall.opens state bound depth ⟨call, children⟩ := rfl
    rw [renderForest, Forest.toList, hbody, ihr outer depth, Forest.visits, List.map_cons,
      List.map_append, List.map_map]
    by_cases hentered : Subcall.opens state bound depth ⟨call, children⟩ = true
    · rw [if_pos hentered, if_pos hentered, ihc (depth :: outer) (depth + 1), List.map_map]
      rfl
    · rw [if_neg hentered, if_neg hentered]
      rfl

/-- The calls in progress were given the depths down from the innermost one to zero. -/
def CountsDown (calls : List UInt32) : Prop :=
  calls.map UInt32.toNat = (List.range calls.length).reverse

theorem countsDown_zero : CountsDown [0] := rfl

/-- The depth of a call is the number of calls around it. -/
theorem CountsDown.toNat_eq {depth : UInt32} {outer : List UInt32}
    (h : CountsDown (depth :: outer)) : depth.toNat = outer.length := by
  rw [CountsDown, List.map_cons, List.length_cons, List.range_succ, List.reverse_concat] at h
  exact (List.cons.inj h).1

/-- A further call is given the next depth, unless that wraps around. -/
theorem CountsDown.next {depth : UInt32} {outer : List UInt32} (h : CountsDown (depth :: outer))
    (hnext : (depth + 1).toNat = depth.toNat + 1) : CountsDown ((depth + 1) :: depth :: outer) := by
  have hlength : ((depth + 1) :: depth :: outer).length = (depth :: outer).length + 1 := rfl
  have hfirst : (depth + 1).toNat = (depth :: outer).length := by
    rw [hnext, h.toNat_eq, List.length_cons]
  rw [CountsDown, hlength, List.range_succ, List.reverse_concat, List.map_cons, hfirst, h]

namespace Forest

variable {α : Type} {enters : UInt32 → Tree α → Bool}

/-- A call for a place of the forest is given the tree there and the depths that count the calls
in progress, which are as many as the levels of the place below the outer ones. -/
structure ExactVisit (forest : Forest α) (outer : List UInt32) (levels : Nat) (visit : Visit α) :
    Prop where
  at_eq : forest.at? visit.place = some visit.tree
  countsDown : CountsDown visit.calls
  length_eq : visit.calls.length = outer.length + visit.place.length
  length_le : visit.calls.length ≤ levels + 1

/-- A recursion that enters no tree on the last level or below it counts its depths exactly. -/
theorem exact_of_mem_visits {bound : UInt32}
    (henters : ∀ depth tree, enters depth tree = true → depth.toNat < bound.toNat - 1)
    {forest : Forest α} {outer : List UInt32} {depth : UInt32}
    (hcounts : CountsDown (depth :: outer)) (hlength : outer.length ≤ bound.toNat - 1)
    {visit : Visit α} (h : visit ∈ forest.visits enters outer depth) :
    forest.ExactVisit outer (bound.toNat - 1) visit := by
  induction forest generalizing outer depth visit with
  | nil => exact absurd h List.not_mem_nil
  | cons a children rest ihc ihr =>
    rw [visits, List.mem_cons, List.mem_append, List.mem_map] at h
    rcases h with rfl | h | ⟨behind, hbehind, rfl⟩
    · exact ⟨rfl, hcounts, rfl, Nat.succ_le_succ hlength⟩
    · split at h
      · next hentered =>
        -- The tree is above the last level, so the next depth is still a word.
        have habove := henters depth _ hentered
        have hnext := hcounts.next (toNat_add_one_of_lt habove)
        have hbelow : (depth :: outer).length ≤ bound.toNat - 1 := by
          rwa [List.length_cons, ← hcounts.toNat_eq]
        obtain ⟨below, hvisit, rfl⟩ := List.mem_map.1 h
        have hexact := ihc hnext hbelow hvisit
        refine ⟨?_, hexact.countsDown, ?_, hexact.length_le⟩
        · exact (at?_below_first _ _ _ (ne_nil_of_at? hexact.at_eq)).trans hexact.at_eq
        · have hlength := hexact.length_eq
          show below.calls.length = outer.length + (0 :: below.place).length
          rw [List.length_cons] at hlength ⊢
          omega
      · exact absurd h List.not_mem_nil
    · have hexact := ihr hcounts hlength hbehind
      refine ⟨?_, hexact.countsDown, ?_, hexact.length_le⟩
      · exact (at?_passFirst _ _ _ _).trans hexact.at_eq
      · show behind.calls.length = outer.length + (passFirst behind.place).length
        rw [length_passFirst, hexact.length_eq]

end Forest

/-- Ids are collected only from above the last level. -/
theorem Subcall.lt_of_collects {bound depth : UInt32} {subcall : Subcall}
    (h : Subcall.collects bound depth subcall = true) : depth.toNat < bound.toNat - 1 := by
  rw [Subcall.collects, Bool.and_eq_true, Bool.not_eq_true'] at h
  exact lt_of_isDepthLimited_eq_false h.1 h.2

/-- Rows are nested only in rows above the last level. -/
theorem Subcall.lt_of_opens {state : Expansion} {bound depth : UInt32} {subcall : Subcall}
    (h : Subcall.opens state bound depth subcall = true) : depth.toNat < bound.toNat - 1 :=
  lt_of_isExpanded h

/-- A recursion that starts at the roots and stops at the last level counts its depths exactly: the
calls in progress were given the depths of the levels down to the place, of which there are no more
than the bound displays, and where a tree is entered the next depth is above the bound. -/
theorem Forest.visits_exact {α : Type} {enters : UInt32 → Tree α → Bool} {bound : UInt32}
    (henters : ∀ depth tree, enters depth tree = true → depth.toNat < bound.toNat - 1)
    (forest : Forest α) :
    ∀ visit ∈ forest.visits enters [] 0,
      forest.at? visit.place = some visit.tree ∧
        visit.depth.toNat = visit.place.length - 1 ∧
        visit.calls.map UInt32.toNat = (List.range visit.place.length).reverse ∧
        visit.calls.length ≤ max bound.toNat 1 ∧
        (enters visit.depth visit.tree = true →
          (visit.depth + 1).toNat = visit.depth.toNat + 1 ∧
            (visit.depth + 1).toNat ≤ bound.toNat - 1) := by
  intro visit hvisit
  have hexact := exact_of_mem_visits henters countsDown_zero (Nat.zero_le _) hvisit
  have hlength : visit.outer.length + 1 = visit.place.length :=
    hexact.length_eq.trans (Nat.zero_add _)
  have hdepth : visit.depth.toNat = visit.outer.length := hexact.countsDown.toNat_eq
  have hcounts : visit.calls.map UInt32.toNat = (List.range visit.calls.length).reverse :=
    hexact.countsDown
  have hlevels : visit.calls.length = visit.place.length := hlength
  have hmost := hexact.length_le
  refine ⟨hexact.at_eq, by omega, hlevels ▸ hcounts, by omega, fun hentered => ?_⟩
  have habove := henters _ _ hentered
  have hnext := toNat_add_one_of_lt habove
  exact ⟨hnext, by omega⟩

/-! ## Walks -/

namespace Walk

variable {α : Type} {forest : Forest α} {walk next : Walk α} {item : UInt32 × Tree α}

/-- The walks that a walk comes to, step by step. -/
inductive Reaches (walk : Walk α) : Walk α → Prop where
  | refl : Reaches walk walk
  | step {now next : Walk α} {item : UInt32 × Tree α} (h : Reaches walk now)
      (hnext : now.next? = some (item, next)) : Reaches walk next

/-- Each tree that is still to be visited is in the forest, and stands with the number of levels
above it. -/
def Exact (forest : Forest α) (walk : Walk α) : Prop :=
  ∀ item ∈ walk.pending,
    ∃ place, forest.at? place = some item.2 ∧ item.1.toNat = place.length - 1

theorem exact_start (forest : Forest α) : (start forest).Exact forest := by
  intro item hitem
  obtain ⟨tree, htree, rfl⟩ := List.mem_map.1 hitem
  obtain ⟨n, hn⟩ := Forest.exists_at?_of_mem_trees htree
  exact ⟨[n], hn, rfl⟩

/-- If a tree has children, then the next depth is that of a level of the forest. -/
theorem toNat_add_one_of_hasChildren (height : forest.height < UInt32.size) {place : List Nat}
    {depth : UInt32} {tree : Tree α} (hplace : forest.at? place = some tree)
    (hdepth : depth.toNat = place.length - 1) (hchildren : tree.hasChildren = true) :
    (depth + 1).toNat = place.length ∧ place.length + 1 ≤ forest.height := by
  obtain ⟨a, children⟩ := tree
  cases children with
  | nil => exact absurd hchildren Bool.false_ne_true
  | cons b below others =>
    have hchild : forest.at? (place ++ [0]) = some ⟨b, below⟩ :=
      (Forest.at?_append hplace (List.cons_ne_nil 0 [])).trans rfl
    have hlevels := Forest.length_le_height hchild
    rw [List.length_append, List.length_singleton] at hlevels
    have hpos := List.length_pos_iff.2 (Forest.ne_nil_of_at? hplace)
    have hnext : (depth + 1).toNat = depth.toNat + 1 := toNat_add_one (by omega)
    exact ⟨by omega, hlevels⟩

/-- A step counts the depth of the children exactly, and changes nothing for the other trees. -/
theorem Exact.step (height : forest.height < UInt32.size) (h : walk.Exact forest)
    (hnext : walk.next? = some (item, next)) : next.Exact forest := by
  obtain ⟨rest, hpending, hbehind⟩ := exists_of_next? hnext
  obtain ⟨place, hplace, hdepth⟩ := h item (hpending ▸ List.mem_cons_self)
  intro other hother
  rw [hbehind] at hother
  rcases List.mem_append.1 hother with hbelow | hrest
  · obtain ⟨child, hchild, rfl⟩ := List.mem_map.1 hbelow
    obtain ⟨n, hn⟩ := Forest.exists_at?_of_mem_trees hchild
    obtain ⟨hcount, -⟩ := toNat_add_one_of_hasChildren height hplace hdepth
      (Forest.hasChildren_of_at? hn)
    refine ⟨place ++ [n], (Forest.at?_append hplace (List.cons_ne_nil n [])).trans hn, ?_⟩
    rw [hcount, List.length_append, List.length_singleton, Nat.add_sub_cancel]
  · exact h other (hpending ▸ List.mem_cons_of_mem _ hrest)

/-- A walk that counts exactly does so at each of its steps. -/
theorem Exact.of_reaches (height : forest.height < UInt32.size) (h : walk.Exact forest)
    (hreaches : walk.Reaches next) : next.Exact forest := by
  induction hreaches with
  | refl => exact h
  | step _ hnext ih => exact ih.step height hnext

end Walk

/-! ## Trajectories -/

/-- The subcall that is found for an id is at a place. -/
theorem exists_at?_of_findSubcall? {trajectory : Trajectory} {id : String} {subcall : Subcall}
    (h : trajectory.findSubcall? id = some subcall) :
    ∃ place, trajectory.subcalls.at? place = some subcall := by
  rw [Trajectory.findSubcall?, trajectory.map_snd_walk] at h
  obtain ⟨⟨place, found⟩, hplaced, rfl⟩ := List.mem_map.1 (List.mem_of_find?_eq_some h)
  exact ⟨place, Forest.mem_placed.1 hplaced⟩

/-- Depths are counted exactly. The recursions that collect ids and display rows do so for every
forest and every bound: a call for the tree at a place is given the number of levels above it as its
depth, the calls in progress are those for the levels down to the place, and there are no more of
them than the bound, or one if the bound is zero. Where the recursion goes down, the next depth is
one more and less than the bound.

In a trajectory that has been loaded every step of the walk counts exactly, too, up to a depth of
61. So validation has compared the recorded depths with the numbers of levels, every subcall is
found for its id, what is found for an id is at the recorded depth, and the largest depth that is
audited is that of a place. -/
theorem depths_exact :
    (∀ (forest : Forest Call) (state : Expansion) (bound : UInt32),
      let collected := forest.visits (Subcall.collects bound) [] 0
      let displayed := forest.visits (Subcall.opens state bound) [] 0
      let counted := fun (enters : UInt32 → Subcall → Bool) (visit : Visit Call) =>
        forest.at? visit.place = some visit.tree ∧
          visit.depth.toNat = visit.place.length - 1 ∧
          visit.calls.map UInt32.toNat = (List.range visit.place.length).reverse ∧
          visit.calls.length ≤ max bound.toNat 1 ∧
          (enters visit.depth visit.tree = true →
            (visit.depth + 1).toNat = visit.depth.toNat + 1 ∧
              (visit.depth + 1).toNat ≤ bound.toNat - 1)
      expandableIds bound 0 forest =
          (collected.filter fun visit => Subcall.collects bound visit.depth visit.tree).map
            (·.tree.value.id) ∧
        (renderForest state bound 0 forest).toList =
          displayed.map (fun visit => Subcall.row state bound visit.depth visit.tree) ∧
        (∀ visit ∈ collected, counted (Subcall.collects bound) visit) ∧
        ∀ visit ∈ displayed, counted (Subcall.opens state bound) visit) ∧
    ∀ text trajectory, Trajectory.load text = .ok trajectory →
      let forest := trajectory.subcalls
      (∀ walk next depth subcall, (Walk.start forest).Reaches walk →
        walk.next? = some ((depth, subcall), next) →
          (∃ place, forest.at? place = some subcall ∧ depth.toNat = place.length - 1) ∧
            (subcall.hasChildren = true →
              (depth + 1).toNat = depth.toNat + 1 ∧ (depth + 1).toNat ≤ 61)) ∧
        trajectory.walk.map (fun (depth, subcall) => (depth.toNat, subcall)) =
          forest.placed.map (fun (place, subcall) => (place.length - 1, subcall)) ∧
        (∀ place subcall, forest.at? place = some subcall →
          subcall.value.depth.toNat = place.length - 1) ∧
        (∀ place subcall, forest.at? place = some subcall →
          trajectory.findSubcall? subcall.value.id = some subcall) ∧
        (∀ id subcall, trajectory.findSubcall? id = some subcall →
          ∃ place, forest.at? place = some subcall ∧
            subcall.value.depth.toNat = place.length - 1) ∧
        (Totals.ofTrajectory trajectory).maxDepth.toNat = forest.deepest := by
  refine ⟨fun forest state bound => ?_, fun text trajectory hload => ?_⟩
  · intro collected displayed counted
    exact ⟨expandableIds_eq_visits bound [] 0 forest,
      toList_renderForest_eq_visits state bound [] 0 forest,
      forest.visits_exact fun _ _ => Subcall.lt_of_collects,
      forest.visits_exact fun _ _ => Subcall.lt_of_opens⟩
  · intro forest
    obtain ⟨hread, -⟩ := load_eq_ok hload
    have hlevels : trajectory.subcalls.height ≤ 62 := (Format.writable_of_read hread).height
    have wellFormed := Trajectory.wellFormed_of_load hload
    have hrecorded : ∀ place subcall, forest.at? place = some subcall →
        subcall.value.depth.toNat = place.length - 1 := fun place subcall hplace =>
      wellFormed.depth (place, subcall) (Forest.mem_placed.2 hplace)
    refine ⟨?_, walk_eq_map_placed wellFormed.height, hrecorded, ?_, ?_, ?_⟩
    · intro walk next depth subcall hreaches hnext
      have hexact := (Walk.exact_start forest).of_reaches wellFormed.height hreaches
      obtain ⟨rest, hpending, -⟩ := Walk.exists_of_next? hnext
      obtain ⟨place, hplace, hdepth⟩ : ∃ place,
          forest.at? place = some subcall ∧ depth.toNat = place.length - 1 :=
        hexact (depth, subcall) (hpending ▸ List.mem_cons_self)
      refine ⟨⟨place, hplace, hdepth⟩, fun hchildren => ?_⟩
      obtain ⟨hcount, hbelow⟩ :=
        Walk.toNat_add_one_of_hasChildren wellFormed.height hplace hdepth hchildren
      have hpos := List.length_pos_iff.2 (Forest.ne_nil_of_at? hplace)
      exact ⟨by omega, by omega⟩
    · exact fun place subcall hplace =>
        wellFormed.findSubcall?_of_mem (Forest.mem_placed.2 hplace)
    · intro id subcall hfound
      obtain ⟨place, hplace⟩ := exists_at?_of_findSubcall? hfound
      exact ⟨place, hplace, hrecorded place subcall hplace⟩
    · have hmost := (Totals.addsUp_ofTrajectory trajectory).maxDepth
      rw [hmost, Totals.foldr_max_levels_of_height wellFormed.height]

/-- With three displayed levels, the ids of `root` and `recurse-1` are collected from two calls
within one another, and `recurse-2` is visited from both of them. The second subcall below the root
is found for its id, at depth 1. The largest depth of the demo trajectory is 12. -/
theorem depths_exact_demo :
    let forest := demoTrajectory.subcalls
    let collected := forest.visits (Subcall.collects 3) [] 0
    collected.map (fun visit => (visit.tree.value.id, visit.calls)) =
        [("root", [0]), ("summarize", [1, 0]), ("locate", [1, 0]), ("recurse-1", [1, 0]),
          ("recurse-2", [2, 1, 0]), ("followup", [0])] ∧
      expandableIds 3 0 forest = ["root", "recurse-1"] ∧
      (∀ visit ∈ collected, visit.calls.length ≤ 3) ∧
      Trajectory.load (Format.write demoTrajectory) = .ok demoTrajectory ∧
      (∃ subcall, forest.at? [0, 1] = some subcall ∧
        demoTrajectory.findSubcall? "locate" = some subcall ∧ subcall.value.depth.toNat = 1) ∧
      (Totals.ofTrajectory demoTrajectory).maxDepth.toNat = 12 := by
  intro forest collected
  obtain ⟨hids, -, hcollected, -⟩ := depths_exact.1 forest .collapsed 3
  have hload := load_demoTrajectory demoTrajectory.runId
  obtain ⟨-, -, hrecorded, hfound, -, hmost⟩ := depths_exact.2 _ demoTrajectory hload
  refine ⟨by decide +kernel, hids.trans (by decide +kernel), fun visit hvisit => ?_, hload, ?_,
    hmost.trans (by decide +kernel)⟩
  · obtain ⟨-, -, -, hlength, -⟩ := hcollected visit hvisit
    exact hlength
  · have hid : (forest.at? [0, 1]).map (·.value.id) = some "locate" := by decide +kernel
    obtain ⟨subcall, hplace, hid⟩ := Option.map_eq_some_iff.1 hid
    exact ⟨subcall, hplace, hid ▸ hfound _ _ hplace, hrecorded _ _ hplace⟩

end RunTrace
