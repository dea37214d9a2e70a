import RunTrace.Proofs.ExpandAll
import RunTrace.Proofs.PreOrder

/-!
# The ids that "expand all" collects

The collection goes through the forest in a recursion of its own, which does not look below a
subcall on the last level. As whatever is below it is further down, nothing is missed: what is
collected is what the walk through the whole forest finds above the last level.

## Main results

* `expandableIds_eq`: the ids are those of the collected places, however high the forest is;
* `Forest.not_prefix_of_placed`: nothing stands in front of what it is nested in;
* `expandable_eq_filter_walk`: the ids are those of a filter of the walk, and a subcall comes behind
  all those that it is nested in.
-/

namespace RunTrace

/-! ## Collected places -/

/-- The places whose ids are collected, in pre-order: those above the last level with children. The
roots of the forest are at the given depth. -/
def Forest.collected (bound : UInt32) (depth : Nat) (forest : Forest Call) :
    List (List Nat × Subcall) :=
  forest.placed.filter fun (place, subcall) =>
    subcall.hasChildren && decide (depth + (place.length - 1) < bound.toNat - 1)

namespace Forest

variable {bound : UInt32} {depth : Nat}

/-- Nothing is collected where the roots are on the last level already. -/
theorem collected_eq_nil (h : bound.toNat - 1 ≤ depth) (forest : Forest Call) :
    forest.collected bound depth = [] := by
  refine List.filter_eq_nil_iff.2 fun item _ => ?_
  have hlevel : ¬ depth + (item.1.length - 1) < bound.toNat - 1 := by omega
  simp [hlevel]

/-- What is collected of a forest: the first tree, what is collected among its children, which are
one level further down, and what is collected behind it. -/
theorem collected_cons (bound : UInt32) (depth : Nat) (call : Call) (children rest : Forest Call) :
    (cons call children rest).collected bound depth =
      (if (Tree.mk call children).hasChildren = true ∧ depth < bound.toNat - 1 then
        [([0], ⟨call, children⟩)] else []) ++
      ((children.collected bound (depth + 1)).map (Prod.map (0 :: ·) id) ++
        (rest.collected bound depth).map (Prod.map passFirst id)) := by
  have below : (children.placed.map (Prod.map (0 :: ·) id)).filter
        (fun (item : List Nat × Subcall) =>
          item.2.hasChildren && decide (depth + (item.1.length - 1) < bound.toNat - 1)) =
      (children.collected bound (depth + 1)).map (Prod.map (0 :: ·) id) := by
    rw [collected, List.filter_map]
    congr 1
    refine List.filter_congr fun item hitem => ?_
    have hpos := List.length_pos_iff.2 (ne_nil_of_mem_placed hitem)
    have hlevel : depth + ((0 :: item.1).length - 1) = depth + 1 + (item.1.length - 1) := by
      rw [List.length_cons]
      omega
    simp only [Function.comp_apply, Prod.map, id, hlevel]
  have behind : (rest.placed.map (Prod.map passFirst id)).filter
        (fun (item : List Nat × Subcall) =>
          item.2.hasChildren && decide (depth + (item.1.length - 1) < bound.toNat - 1)) =
      (rest.collected bound depth).map (Prod.map passFirst id) := by
    rw [collected, List.filter_map]
    congr 1
    refine List.filter_congr fun item _ => ?_
    simp only [Function.comp_apply, Prod.map, id, length_passFirst]
  rw [collected, placed, List.filter_cons, List.filter_append, below, behind]
  simp only [List.length_singleton, Nat.sub_self, Nat.add_zero, Bool.and_eq_true,
    decide_eq_true_iff]
  split <;> rfl

end Forest

/-- The ids that are collected are those of the collected places, however high the forest is: a tree
is only cut off where nothing below it would be collected. -/
theorem expandableIds_eq (bound depth : UInt32) (forest : Forest Call) :
    expandableIds bound depth forest =
      (forest.collected bound depth.toNat).map (·.2.value.id) := by
  induction forest generalizing depth with
  | nil => rfl
  | cons call children rest ihc ihr =>
    rw [Forest.collected_cons, List.map_append, List.map_append, List.map_map, List.map_map,
      expandableIds, isDepthLimited_eq, ihr]
    by_cases hchildren : (Tree.mk call children).hasChildren = true
    · by_cases hdepth : depth.toNat < bound.toNat - 1
      · have hlevel : ¬ bound.toNat - 1 ≤ depth.toNat := by omega
        rw [ihc, toNat_add_one_of_lt hdepth]
        simp [hchildren, hdepth, hlevel]
        rfl
      · have hnone := Forest.collected_eq_nil (show bound.toNat - 1 ≤ depth.toNat + 1 by omega)
          children
        have hlevel : bound.toNat - 1 ≤ depth.toNat := by omega
        simp [hchildren, hdepth, hlevel, hnone]
    · -- Without children there is nothing below.
      cases children with
      | nil => simp [Tree.hasChildren, Forest.isEmpty, Forest.collected, Forest.placed]
      | cons => exact absurd rfl hchildren

/-! ## The order -/

/-- Nothing stands in front of what it is nested in. -/
theorem Forest.not_prefix_of_placed {α : Type} (forest : Forest α) :
    forest.placed.Pairwise fun item other => ¬ other.1 <+: item.1 := by
  rw [List.pairwise_iff_getElem]
  intro position position' hposition hposition' hlt hbegins
  have hitem := List.getElem?_eq_getElem hposition
  have hother := List.getElem?_eq_getElem hposition'
  by_cases hne : forest.placed[position].1 = forest.placed[position'].1
  · -- No place is listed twice.
    have hsame : (forest.placed.map (·.1))[position]? =
        (forest.placed.map (·.1))[position']? := by
      rw [List.getElem?_map, List.getElem?_map, hitem, hother]
      exact congrArg some hne
    have hposition := (List.getElem?_inj (by rwa [List.length_map]) forest.nodup_places).1 hsame
    omega
  · have hbetween := (Forest.between_iff hother hitem).1 ⟨hbegins, hne⟩
    omega

namespace Forest

variable {bound : UInt32} {depth : Nat} {forest : Forest Call} {item : List Nat × Subcall}

theorem mem_collected_iff :
    item ∈ forest.collected bound depth ↔
      forest.at? item.1 = some item.2 ∧ item.2.hasChildren = true ∧
        depth + (item.1.length - 1) < bound.toNat - 1 := by
  rw [collected, List.mem_filter, mem_placed, Bool.and_eq_true, decide_eq_true_iff]

/-- All that a collected subcall is nested in is collected before it. -/
theorem exists_collected_before {front behind : List (List Nat × Subcall)}
    (h : forest.collected bound depth = front ++ item :: behind) {levels : Nat}
    (hpos : 0 < levels) (hlevels : levels < item.1.length) :
    ∃ ancestor, (item.1.take levels, ancestor) ∈ front := by
  have hitem : item ∈ forest.collected bound depth := by
    rw [h]
    exact List.mem_append_right front List.mem_cons_self
  obtain ⟨hplace, -, hdepth⟩ := mem_collected_iff.1 hitem
  obtain ⟨ancestor, hancestor⟩ := exists_at?_take hplace hpos
  have hlength : (item.1.take levels).length = levels := by
    rw [List.length_take]
    omega
  -- The ancestor has children and is further up, so it is collected, too.
  have hcollected : (item.1.take levels, ancestor) ∈ forest.collected bound depth := by
    refine mem_collected_iff.2 ⟨hancestor, hasChildren_of_at?_take hplace hancestor hlevels, ?_⟩
    show depth + ((item.1.take levels).length - 1) < bound.toNat - 1
    omega
  refine ⟨ancestor, ?_⟩
  rw [h, List.mem_append, List.mem_cons] at hcollected
  rcases hcollected with hfront | hself | hbehind
  · exact hfront
  · have hsame := congrArg (fun other : List Nat × Subcall => other.1.length) hself
    exact absurd (hlength.symm.trans hsame) (by omega)
  · -- Nothing that the subcall is nested in stands behind it.
    have horder : (front ++ item :: behind).Pairwise fun item other => ¬ other.1 <+: item.1 :=
      h ▸ forest.not_prefix_of_placed.sublist List.filter_sublist
    have hitself := (List.pairwise_cons.1 (List.pairwise_append.1 horder).2.1).1 _ hbehind
    exact absurd (List.take_prefix levels item.1) hitself

end Forest

/-- The walk finds the collected places, if the forest is not too high: its subcalls that have
children and are not limited. -/
theorem filter_walk_eq {trajectory : Trajectory}
    (height : trajectory.subcalls.height < UInt32.size) (bound : UInt32) :
    (trajectory.walk.filter fun (depth, subcall) =>
        subcall.hasChildren && !isDepthLimited subcall depth bound) =
      (trajectory.subcalls.collected bound 0).map fun (place, subcall) =>
        (Forest.depthAt 0 place, subcall) := by
  rw [trajectory.walk_eq_preorder, Forest.preorder_eq_map_placed, List.filter_map, Forest.collected]
  congr 1
  refine List.filter_congr fun item hitem => ?_
  have hdepth := Forest.toNat_depthAt_of_at? height (Forest.mem_placed.1 hitem)
  have habove : decide (0 + (item.1.length - 1) < bound.toNat - 1) =
      !decide (bound.toNat - 1 ≤ item.1.length - 1) := by
    rw [Nat.zero_add, ← decide_not]
    exact decide_eq_decide.2 Nat.not_le.symm
  show (item.2.hasChildren && !isDepthLimited item.2 (Forest.depthAt 0 item.1) bound) =
    (item.2.hasChildren && decide (0 + (item.1.length - 1) < bound.toNat - 1))
  rw [isDepthLimited_eq, hdepth, habove]
  cases item.2.hasChildren <;> rfl

/-- The ids that "expand all" collects are those of the subcalls of the walk that have children and
are not limited, in the same order and as often. So of the subcalls of the walk that have children,
exactly those are collected that are not limited. As a list of places, what is collected has all
that a subcall is nested in before the subcall. -/
theorem expandable_eq_filter_walk (trajectory : Trajectory)
    (height : trajectory.subcalls.height < UInt32.size) (bound : UInt32) :
    let forest := trajectory.subcalls
    let kept := trajectory.walk.filter fun (depth, subcall) =>
      subcall.hasChildren && !isDepthLimited subcall depth bound
    let places := forest.placed.filter fun (place, subcall) =>
      subcall.hasChildren && decide (place.length - 1 < bound.toNat - 1)
    trajectory.expandable bound = kept.map (·.2.value.id) ∧
      (∀ item ∈ trajectory.walk, item.2.hasChildren = true →
        (item ∈ kept ↔ ¬ isDepthLimited item.2 item.1 bound = true)) ∧
      kept.map (fun (depth, subcall) => (depth.toNat, subcall)) =
        places.map (fun (place, subcall) => (place.length - 1, subcall)) ∧
      ∀ front item behind, places = front ++ item :: behind →
        ∀ levels, 0 < levels → levels < item.1.length →
          ∃ ancestor, forest.at? (item.1.take levels) = some ancestor ∧
            (item.1.take levels, ancestor) ∈ front := by
  intro forest kept places
  have hplaces : places = forest.collected bound 0 := by
    refine List.filter_congr fun item _ => ?_
    show _ = (item.2.hasChildren && decide (0 + (item.1.length - 1) < bound.toNat - 1))
    rw [Nat.zero_add]
  have hkept : kept = (forest.collected bound 0).map fun (place, subcall) =>
      (Forest.depthAt 0 place, subcall) := filter_walk_eq height bound
  refine ⟨?_, fun item hitem hchildren => ?_, ?_,
    fun front item behind hsplit levels hpos hlevels => ?_⟩
  · rw [hkept, List.map_map]
    exact expandableIds_eq bound 0 forest
  · have hmem : item ∈ kept ↔ item ∈ trajectory.walk ∧
        (item.2.hasChildren && !isDepthLimited item.2 item.1 bound) = true := List.mem_filter
    rw [hmem, and_iff_right hitem, hchildren, Bool.true_and, Bool.not_eq_true', Bool.not_eq_true]
  · rw [hkept, hplaces, List.map_map]
    refine List.map_congr_left fun item hitem => ?_
    have hplace := (Forest.mem_collected_iff.1 hitem).1
    exact Prod.ext (Forest.toNat_depthAt_of_at? height hplace) rfl
  · rw [hplaces] at hsplit
    obtain ⟨ancestor, hfront⟩ := Forest.exists_collected_before hsplit hpos hlevels
    refine ⟨ancestor, ?_, hfront⟩
    have hcollected : (item.1.take levels, ancestor) ∈ forest.collected bound 0 := by
      rw [hsplit]
      exact List.mem_append_left _ hfront
    exact (Forest.mem_collected_iff.1 hcollected).1

/-- With three levels, `root` and `recurse-1` are collected in the demo trajectory; `recurse-2` has
children, too, but is limited. -/
theorem expandable_eq_filter_walk_demo :
    demoTrajectory.subcalls.height < UInt32.size ∧
      demoTrajectory.expandable 3 = ["root", "recurse-1"] ∧
      ∃ subcall, (2, subcall) ∈ demoTrajectory.walk ∧ subcall.value.id = "recurse-2" ∧
        isDepthLimited subcall 2 3 = true ∧
        (2, subcall) ∉ demoTrajectory.walk.filter fun (depth, subcall) =>
          subcall.hasChildren && !isDepthLimited subcall depth 3 := by
  have height : demoTrajectory.subcalls.height < UInt32.size := by decide +kernel
  obtain ⟨hids, hlimited, -, -⟩ := expandable_eq_filter_walk demoTrajectory height 3
  have hfifth : demoTrajectory.walk[4]?.map (fun item =>
      (item.1, item.2.value.id, item.2.hasChildren, isDepthLimited item.2 item.1 3)) =
        some (2, "recurse-2", true, true) := by decide +kernel
  obtain ⟨⟨depth, subcall⟩, hitem, heq⟩ := Option.map_eq_some_iff.1 hfifth
  simp only [Prod.mk.injEq] at heq
  obtain ⟨rfl, hid, hchildren, hlast⟩ := heq
  have hmem := List.mem_of_getElem? hitem
  refine ⟨height, hids.trans (by decide +kernel), subcall, hmem, hid, hlast, fun hkept => ?_⟩
  exact (hlimited (2, subcall) hmem hchildren).1 hkept hlast

end RunTrace
