import Mathlib
import RunTrace.Proofs.Format.RoundTrip
import RunTrace.Session

/-!
# Trajectories that compare equal

Trajectories are compared by value, and their costs as numbers: zeros of either sign are equal,
and what is not a number does not equal itself. So trajectories that compare equal need not be
the same, and a trajectory need not equal itself. Here the comparison is shown to be symmetric
and transitive, and actions to have the same effect on trajectories that compare equal.

## Main results

* `Call.beq_iff`, `Trajectory.beq_iff`: what is compared;
* `Forest.beq_induction`: forests that compare equal have the same shape;
* `Action.apply_congr`: an action has the same effect on trajectories that compare equal;
* `Trajectory.beq_self_of_load`: what has been loaded equals itself.
-/

namespace RunTrace

/-! ## Calls -/

/-- Calls compare equal if their costs do and they are the same apart from those. -/
theorem Call.beq_iff (a b : Call) :
    (a == b) = true ↔
      { a with cost := 0 } = { b with cost := 0 } ∧ (a.cost == b.cost) = true := by
  obtain ⟨id, depth, name, outcome, startedAt, completedAt, durationMs, tokens, cost, toolCalls,
    error⟩ := a
  obtain ⟨id', depth', name', outcome', startedAt', completedAt', durationMs', tokens', cost',
    toolCalls', error'⟩ := b
  change instBEqCall.beq _ _ = true ↔ _
  simp only [instBEqCall.beq, Bool.and_eq_true, beq_iff_eq, Call.mk.injEq]
  tauto

instance : PartialEquivBEq Call where
  symm h := by
    rw [Call.beq_iff] at h ⊢
    exact ⟨h.1.symm, BEq.symm h.2⟩
  trans h h' := by
    rw [Call.beq_iff] at h h' ⊢
    exact ⟨h.1.trans h'.1, BEq.trans h.2 h'.2⟩

/-- A call is not told from one that it compares equal to by what toggles look at. -/
theorem Call.outline_congr {a b : Call} (h : (a == b) = true) :
    a.id = b.id ∧ a.hasToolCalls = b.hasToolCalls := by
  obtain ⟨hsame, -⟩ := (Call.beq_iff a b).1 h
  have hid := congrArg Call.id hsame
  have htools := congrArg Call.hasToolCalls hsame
  exact ⟨hid, htools⟩

/-- A finite cost is a number, so it equals itself. -/
theorem beq_self_of_isFinite {cost : Float} (h : cost.isFinite = true) :
    (cost == cost) = true := by
  refine Float.beq_self_iff.2 fun hnan => ?_
  rw [hnan] at h
  exact absurd h (by decide)

/-! ## Forests -/

namespace Forest

section Comparison

variable {α : Type} [BEq α]

@[simp]
theorem cons_beq_cons (a b : α) (children children' rest rest' : Forest α) :
    (cons a children rest == cons b children' rest') =
      (a == b && (children == children' && rest == rest')) := rfl

@[simp]
theorem nil_beq_cons (a : α) (children rest : Forest α) :
    ((nil : Forest α) == cons a children rest) = false := rfl

@[simp]
theorem cons_beq_nil (a : α) (children rest : Forest α) :
    (cons a children rest == (nil : Forest α)) = false := rfl

/-- Forests compare equal only if they have the same shape, so what holds of the empty ones and
is handed on by children and siblings holds of both. -/
@[elab_as_elim]
theorem beq_induction {motive : ∀ forest other : Forest α, (forest == other) = true → Prop}
    (nil : motive nil nil rfl)
    (cons : ∀ {a b : α} {children children' rest rest' : Forest α} (h : (a == b) = true)
      (hchildren : (children == children') = true) (hrest : (rest == rest') = true),
      motive children children' hchildren → motive rest rest' hrest →
        motive (cons a children rest) (cons b children' rest') (by simp [h, hchildren, hrest]))
    {forest other : Forest α} (h : (forest == other) = true) : motive forest other h := by
  induction forest generalizing other with
  | nil =>
    cases other with
    | nil => exact nil
    | cons => simp at h
  | cons a children rest ihc ihr =>
    cases other with
    | nil => simp at h
    | cons b children' rest' =>
      have hparts := h
      simp only [cons_beq_cons, Bool.and_eq_true] at hparts
      exact cons hparts.1 hparts.2.1 hparts.2.2 (ihc hparts.2.1) (ihr hparts.2.2)

theorem beq_symm [PartialEquivBEq α] {forest other : Forest α} (h : (forest == other) = true) :
    (other == forest) = true := by
  induction h using beq_induction with
  | nil => rfl
  | cons h _ _ ihc ihr =>
    simp only [cons_beq_cons, Bool.and_eq_true]
    exact ⟨BEq.symm h, ihc, ihr⟩

theorem beq_trans [PartialEquivBEq α] {forest other third : Forest α}
    (h : (forest == other) = true) (h' : (other == third) = true) :
    (forest == third) = true := by
  induction h using beq_induction generalizing third with
  | nil => exact h'
  | cons h _ _ ihc ihr =>
    cases third with
    | nil => simp at h'
    | cons c children rest =>
      simp only [cons_beq_cons, Bool.and_eq_true] at h' ⊢
      exact ⟨BEq.trans h h'.1, ihc h'.2.1, ihr h'.2.2⟩

instance [PartialEquivBEq α] : PartialEquivBEq (Forest α) :=
  ⟨beq_symm, beq_trans⟩

/-- A forest equals itself if its values do. -/
theorem beq_self {forest : Forest α} (h : ∀ a ∈ forest.toList, (a == a) = true) :
    (forest == forest) = true := by
  induction forest with
  | nil => rfl
  | cons a children rest ihc ihr =>
    rw [toList, List.forall_mem_cons, List.forall_mem_append] at h
    simp only [cons_beq_cons, Bool.and_eq_true]
    exact ⟨h.1, ihc h.2.1, ihr h.2.2⟩

/-- Forests that compare equal are empty both or not. -/
theorem isEmpty_congr {forest other : Forest α} (h : (forest == other) = true) :
    forest.isEmpty = other.isEmpty := by
  induction h using beq_induction <;> rfl

end Comparison

end Forest

/-! ## Trajectories -/

namespace Trajectory

/-- Trajectories compare equal if their total costs and their subcalls do and they are the same
apart from those. -/
theorem beq_iff (a b : Trajectory) :
    (a == b) = true ↔
      { a with totalCost := 0, subcalls := .nil } = { b with totalCost := 0, subcalls := .nil } ∧
        (a.totalCost == b.totalCost) = true ∧ (a.subcalls == b.subcalls) = true := by
  obtain ⟨runId, totalSubcalls, maxDepth, totalTokens, totalCost, totalDurationMs, subcalls⟩ := a
  obtain ⟨runId', totalSubcalls', maxDepth', totalTokens', totalCost', totalDurationMs',
    subcalls'⟩ := b
  change instBEqTrajectory.beq _ _ = true ↔ _
  simp only [instBEqTrajectory.beq, Bool.and_eq_true, beq_iff_eq, Trajectory.mk.injEq]
  tauto

instance : PartialEquivBEq Trajectory where
  symm h := by
    rw [beq_iff] at h ⊢
    exact ⟨h.1.symm, BEq.symm h.2.1, BEq.symm h.2.2⟩
  trans h h' := by
    rw [beq_iff] at h h' ⊢
    exact ⟨h.1.trans h'.1, BEq.trans h.2.1 h'.2.1, BEq.trans h.2.2 h'.2.2⟩

/-- What has been loaded equals itself, as all of its costs are finite. -/
theorem beq_self_of_load {text : String} {trajectory : Trajectory}
    (h : load text = .ok trajectory) : (trajectory == trajectory) = true := by
  obtain ⟨hread, -⟩ := load_eq_ok h
  have writable := Format.writable_of_read hread
  refine (beq_iff trajectory trajectory).2
    ⟨rfl, beq_self_of_isFinite writable.totalCost, Forest.beq_self fun call hmem => ?_⟩
  exact (Call.beq_iff call call).2 ⟨rfl, beq_self_of_isFinite (writable.costs call hmem)⟩

end Trajectory

/-! ## Actions -/

/-- What of a subcall a toggle looks at: its id, and whether it has children and tool calls. -/
def Subcall.outline (subcall : Subcall) : String × Bool × Bool :=
  (subcall.value.id, subcall.hasChildren, subcall.value.hasToolCalls)

/-- Forests that compare equal have the same subcalls, as far as toggles can see. -/
theorem map_outline_subtrees_congr {forest other : Forest Call} (h : (forest == other) = true) :
    forest.subtrees.map Subcall.outline = other.subtrees.map Subcall.outline := by
  induction h using Forest.beq_induction with
  | nil => rfl
  | @cons call call' children children' _ _ hcall hchildren _ ihc ihr =>
    obtain ⟨hid, htools⟩ := Call.outline_congr hcall
    have hfirst : Subcall.outline ⟨call, children⟩ = Subcall.outline ⟨call', children'⟩ := by
      simp only [Subcall.outline, Tree.hasChildren, Forest.isEmpty_congr hchildren, hid, htools]
    rw [Forest.subtrees, Forest.subtrees, List.map_cons, List.map_cons, List.map_append,
      List.map_append, hfirst, ihc, ihr]

/-- From forests that compare equal the same ids are collected. -/
theorem expandableIds_congr {forest other : Forest Call} (h : (forest == other) = true)
    (bound depth : UInt32) :
    expandableIds bound depth forest = expandableIds bound depth other := by
  induction h using Forest.beq_induction generalizing depth with
  | nil => rfl
  | @cons call call' children children' _ _ hcall hchildren _ ihc ihr =>
    have hparent : (⟨call, children⟩ : Subcall).hasChildren =
        (⟨call', children'⟩ : Subcall).hasChildren :=
      congrArg (!·) (Forest.isEmpty_congr hchildren)
    rw [expandableIds, expandableIds, isDepthLimited, isDepthLimited, hparent,
      (Call.outline_congr hcall).1, ihc, ihr]

/-- What toggles see of the subcall that is found for an id. -/
theorem map_outline_findSubcall? (trajectory : Trajectory) (id : String) :
    (trajectory.findSubcall? id).map Subcall.outline =
      (trajectory.subcalls.subtrees.map Subcall.outline).find? (·.1 == id) := by
  rw [Trajectory.findSubcall?, trajectory.walk_eq_preorder, Forest.map_snd_preorder,
    List.find?_map]
  rfl

/-- What toggles see of it is the same in trajectories that compare equal. -/
theorem map_outline_findSubcall?_congr {trajectory other : Trajectory}
    (h : (trajectory == other) = true) (id : String) :
    (trajectory.findSubcall? id).map Subcall.outline =
      (other.findSubcall? id).map Subcall.outline := by
  obtain ⟨-, -, hsubcalls⟩ := (Trajectory.beq_iff trajectory other).1 h
  rw [map_outline_findSubcall?, map_outline_findSubcall?, map_outline_subtrees_congr hsubcalls]

/-- A toggle has the same effect for subcalls of which it sees the same. -/
theorem Expansion.toggle_congr (state : Expansion) {found other : Option Subcall}
    (h : found.map Subcall.outline = other.map Subcall.outline) :
    found.elim state state.toggleChildren = other.elim state state.toggleChildren ∧
      found.elim state state.toggleTools = other.elim state state.toggleTools := by
  cases found with
  | none =>
    obtain rfl : other = none := by simpa using h
    exact ⟨rfl, rfl⟩
  | some subcall =>
    obtain ⟨subcall', rfl, hsame⟩ := Option.map_eq_some_iff.1 h.symm
    simp only [Subcall.outline, Prod.mk.injEq] at hsame
    obtain ⟨hid, hchildren, htools⟩ := hsame
    simp only [Option.elim_some, toggleChildren, toggleTools, hid, hchildren, htools, and_self]

/-- An action has the same effect on trajectories that compare equal. -/
theorem Action.apply_congr {trajectory other : Trajectory} (h : (trajectory == other) = true)
    (bound : UInt32) (state : Expansion) (action : Action) :
    action.apply trajectory bound state = action.apply other bound state := by
  obtain ⟨-, -, hsubcalls⟩ := (Trajectory.beq_iff trajectory other).1 h
  cases action with
  | toggleChildren id => exact (state.toggle_congr (map_outline_findSubcall?_congr h id)).1
  | toggleTools id => exact (state.toggle_congr (map_outline_findSubcall?_congr h id)).2
  | expandAll =>
    exact congrArg state.expandAll (expandableIds_congr hsubcalls bound 0)
  | _ => rfl

end RunTrace
