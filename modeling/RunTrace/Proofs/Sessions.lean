import Mathlib.Algebra.Ring.Parity
import Mathlib.Data.List.DropRight
import RunTrace.Proofs.ExpandAll
import RunTrace.Proofs.ExpansionSets
import RunTrace.Session

/-!
# Sessions in closed form

A session is a sequence of actions, each under the bound of its time. Expanding or collapsing all
forgets which children were shown before, and toggling twice is as good as not at all. So what is
expanded in the end can be told from the last action on all children at once, from how often each id
was toggled behind it, and from how often the tool calls of each id were toggled at all.

## Main results

* `Session.showsChildren_apply`, `Session.showsTools_apply`: what one action does to an id;
* `Session.showsChildren_run`, `Session.showsTools_run`: what a session does to an id;
* `Session.run_closedForm`: so the order of toggles does not matter, and neither do actions that are
  for the host or for ids that no subcall has;
* `Session.run_shows_recorded`: a session that starts with nothing only ever shows what is recorded.
-/

namespace RunTrace

namespace Trajectory

variable (trajectory : Trajectory) {id : String} {subcall : Subcall}

/-- The subcall that is found for an id has that id. -/
theorem id_of_findSubcall? (h : trajectory.findSubcall? id = some subcall) :
    subcall.value.id = id := by
  have hid := List.find?_some h
  exact beq_iff_eq.1 hid

/-- The subcall that is found for an id is one of the walk. -/
theorem exists_mem_walk_of_findSubcall? (h : trajectory.findSubcall? id = some subcall) :
    ∃ item ∈ trajectory.walk, item.2 = subcall := by
  exact List.mem_map.1 (List.mem_of_find?_eq_some h)

end Trajectory

/-! ## Sessions -/

namespace Session

/-- An action under the bound of its time. -/
structure Step where
  bound : UInt32
  action : Action
  deriving DecidableEq

/-- What is expanded after the steps of a session. -/
def run (trajectory : Trajectory) (start : Expansion) (steps : List Step) : Expansion :=
  steps.foldl (fun state step => step.action.apply trajectory step.bound state) start

/-- Something done to the children of all subcalls at once. -/
inductive Bulk where
  /-- All children within a bound are shown. -/
  | expandAll (bound : UInt32)
  | collapseAll
  deriving DecidableEq

/-- Whether an id shows its children after all were expanded or collapsed. -/
def Bulk.shows (trajectory : Trajectory) (id : String) : Bulk → Bool
  | expandAll bound => decide (id ∈ trajectory.expandable bound)
  | collapseAll => false

/-- What a step does to the children of all subcalls at once, if it does. -/
def Step.bulk? (step : Step) : Option Bulk :=
  match step.action with
  | .expandAll => some (.expandAll step.bound)
  | .collapseAll => some .collapseAll
  | _ => none

/-- What was last done to the children of all subcalls at once. -/
def lastBulk? (steps : List Step) : Option Bulk :=
  (steps.filterMap Step.bulk?).getLast?

/-- The steps behind the last one that was for the children of all subcalls. -/
def sinceBulk (steps : List Step) : List Step :=
  steps.rtakeWhile (·.bulk?.isNone)

/-- Whether an action is done an odd number of times. -/
def isOdd (action : Action) (steps : List Step) : Bool :=
  decide (Odd ((steps.map (·.action)).count action))

/-- Whether an id shows its children before it is toggled by the steps behind the last one for
all subcalls. -/
def base (trajectory : Trajectory) (start : Expansion) (steps : List Step) (id : String) : Bool :=
  match lastBulk? steps with
  | none => start.showsChildren id
  | some bulk => bulk.shows trajectory id

/-! ## One step more -/

variable (trajectory : Trajectory) (start : Expansion) (steps : List Step) (step : Step)

theorem run_concat :
    run trajectory start (steps ++ [step]) =
      step.action.apply trajectory step.bound (run trajectory start steps) := by
  rw [run, List.foldl_append]
  rfl

theorem lastBulk?_concat : lastBulk? (steps ++ [step]) = step.bulk?.or (lastBulk? steps) := by
  rw [lastBulk?, List.filterMap_append, List.getLast?_append]
  cases h : step.bulk? <;> simp [h, lastBulk?]

theorem sinceBulk_concat :
    sinceBulk (steps ++ [step]) =
      if step.bulk?.isNone then sinceBulk steps ++ [step] else [] :=
  List.rtakeWhile_concat ..

theorem isOdd_concat (action : Action) :
    isOdd action (steps ++ [step]) = xor (isOdd action steps) (decide (step.action = action)) := by
  rw [isOdd, isOdd, List.map_append, List.count_append, List.map_singleton, List.count_singleton]
  by_cases h : step.action = action
  · simp only [h, beq_self_eq_true, ↓reduceIte, Nat.odd_add_one, decide_not, decide_true,
      Bool.xor_true]
  · simp [h]

/-! ## What one action does -/

/-- For the id that is toggled, it makes no difference under which name it is looked up. -/
theorem any_findSubcall?_and (p : Subcall → Bool) (key id : String) :
    ((trajectory.findSubcall? id).any p && decide (key = id)) =
      ((trajectory.findSubcall? key).any p && decide (key = id)) := by
  by_cases h : key = id
  · rw [h]
  · simp [h]

/-- An action on all children decides what an id shows. Of all others only toggling that id has an
effect, and only if it leads to a subcall with children. -/
theorem showsChildren_apply (state : Expansion) (id : String) :
    (step.action.apply trajectory step.bound state).showsChildren id =
      match step.bulk? with
      | some bulk => bulk.shows trajectory id
      | none => xor (state.showsChildren id)
          ((trajectory.findSubcall? id).any Tree.hasChildren &&
            decide (step.action = .toggleChildren id)) := by
  obtain ⟨bound, action⟩ := step
  cases action with
  | toggleChildren key =>
    simp only [Action.apply, Step.bulk?, Action.toggleChildren.injEq]
    rw [any_findSubcall?_and]
    cases hfound : trajectory.findSubcall? key with
    | none => simp
    | some subcall =>
      rw [Option.elim_some, Expansion.showsChildren_toggleChildren,
        trajectory.id_of_findSubcall? hfound, Option.any_some]
  | toggleTools key =>
    simp only [Action.apply, Step.bulk?]
    cases trajectory.findSubcall? key <;> simp
  | expandAll => exact state.showsChildren_expandAll (trajectory.expandable bound) id
  | collapseAll => exact congrArg Shown.children (state.shown_collapseAll id)
  | activateSubcall | activateToolCall | loadDeeper => simp [Action.apply, Step.bulk?]

/-- Only toggling the tool calls of an id changes whether it shows them, and only if it leads to a
subcall with tool calls. -/
theorem showsTools_apply (state : Expansion) (id : String) :
    (step.action.apply trajectory step.bound state).showsTools id =
      xor (state.showsTools id)
        ((trajectory.findSubcall? id).any (·.value.hasToolCalls) &&
          decide (step.action = .toggleTools id)) := by
  obtain ⟨bound, action⟩ := step
  cases action with
  | toggleChildren key =>
    rw [Action.apply]
    cases trajectory.findSubcall? key <;> simp
  | toggleTools key =>
    simp only [Action.apply, Action.toggleTools.injEq]
    rw [any_findSubcall?_and]
    cases hfound : trajectory.findSubcall? key with
    | none => simp
    | some subcall =>
      rw [Option.elim_some, Expansion.showsTools_toggleTools,
        trajectory.id_of_findSubcall? hfound, Option.any_some]
  | expandAll | collapseAll | activateSubcall | activateToolCall | loadDeeper => simp [Action.apply]

/-! ## What a session does -/

/-- An id shows its children after a session if it did before it was toggled, or if not, that only
if it leads to a subcall with children and was toggled an odd number of times. -/
theorem showsChildren_run (id : String) :
    (run trajectory start steps).showsChildren id =
      xor (base trajectory start steps id)
        ((trajectory.findSubcall? id).any Tree.hasChildren &&
          isOdd (.toggleChildren id) (sinceBulk steps)) := by
  -- The last step is taken off, as what comes behind it decides which steps count.
  induction steps using List.reverseRecOn with
  | nil => simp [run, base, lastBulk?, sinceBulk, isOdd]
  | append_singleton steps step ih =>
    rw [run_concat, showsChildren_apply, ih, base, base, lastBulk?_concat, sinceBulk_concat]
    cases hbulk : step.bulk? with
    | some bulk => simp [isOdd]
    | none =>
      simp only [Option.none_or, Option.isNone_none, ↓reduceIte, isOdd_concat,
        Bool.and_xor_distrib_left, Bool.xor_assoc]

/-- An id shows its tool calls after a session if it did before, unless it leads to a subcall with
tool calls and was toggled an odd number of times. -/
theorem showsTools_run (id : String) :
    (run trajectory start steps).showsTools id =
      xor (start.showsTools id)
        ((trajectory.findSubcall? id).any (·.value.hasToolCalls) &&
          isOdd (.toggleTools id) steps) := by
  induction steps using List.reverseRecOn with
  | nil => simp [run, isOdd]
  | append_singleton steps step ih =>
    rw [run_concat, showsTools_apply, ih, isOdd_concat, Bool.and_xor_distrib_left, Bool.xor_assoc]

/-! ## What does not matter -/

/-- Whether an action has no effect on what is expanded: it is for the host, or it toggles an id
that no subcall has. -/
def isIdle (trajectory : Trajectory) : Action → Bool
  | .toggleChildren id | .toggleTools id => (trajectory.findSubcall? id).isNone
  | .expandAll | .collapseAll => false
  | .activateSubcall _ | .activateToolCall _ | .loadDeeper _ => true

variable {trajectory}

theorem apply_of_isIdle {action : Action} (h : isIdle trajectory action = true) (bound : UInt32)
    (state : Expansion) : action.apply trajectory bound state = state := by
  cases action with
  | toggleChildren id | toggleTools id => rw [Action.apply, Option.isNone_iff_eq_none.1 h]; rfl
  | expandAll | collapseAll => exact absurd h Bool.false_ne_true
  | activateSubcall | activateToolCall | loadDeeper => rfl

/-- A step without effect can be left out wherever it is. -/
theorem run_insert_of_isIdle {step : Step} (h : isIdle trajectory step.action = true)
    (start : Expansion) (front back : List Step) :
    run trajectory start (front ++ step :: back) = run trajectory start (front ++ back) := by
  rw [run, run, List.foldl_append, List.foldl_append, List.foldl_cons, apply_of_isIdle h]

/-- Sessions with the same last action on all children lead to the same record if every id was
toggled equally often behind it, and its tool calls at all, up to even numbers. -/
theorem run_congr {steps others : List Step} (start : Expansion)
    (hbulk : lastBulk? others = lastBulk? steps)
    (hchildren : ∀ id, isOdd (.toggleChildren id) (sinceBulk others) =
      isOdd (.toggleChildren id) (sinceBulk steps))
    (htools : ∀ id, isOdd (.toggleTools id) others = isOdd (.toggleTools id) steps) :
    run trajectory start others = run trajectory start steps := by
  refine Expansion.ext_flags (fun id => ?_) (fun id => ?_)
  · rw [showsChildren_run, showsChildren_run, base, base, hbulk, hchildren]
  · rw [showsTools_run, showsTools_run, htools]

/-- After a session, an id shows its children as it did behind the last action on all children,
flipped if it leads to a subcall with children and was toggled an odd number of times since; it
shows its tool calls as it did at the start, flipped if it leads to a subcall with tool calls and
these were toggled an odd number of times. So sessions that agree in this lead to the same record,
and actions for the host and ids that no subcall has can be put in or left out anywhere. -/
theorem run_closedForm (trajectory : Trajectory) (start : Expansion) (steps : List Step) :
    let final := run trajectory start steps
    (∀ id, final.showsChildren id =
        if (trajectory.findSubcall? id).any Tree.hasChildren then
          xor (base trajectory start steps id) (isOdd (.toggleChildren id) (sinceBulk steps))
        else base trajectory start steps id) ∧
      (∀ id, final.showsTools id =
        if (trajectory.findSubcall? id).any (·.value.hasToolCalls) then
          xor (start.showsTools id) (isOdd (.toggleTools id) steps)
        else start.showsTools id) ∧
      (∀ others, lastBulk? others = lastBulk? steps →
        (∀ id, isOdd (.toggleChildren id) (sinceBulk others) =
          isOdd (.toggleChildren id) (sinceBulk steps)) →
        (∀ id, isOdd (.toggleTools id) others = isOdd (.toggleTools id) steps) →
        run trajectory start others = final) ∧
      ∀ front step back, steps = front ++ step :: back → isIdle trajectory step.action = true →
        run trajectory start (front ++ back) = final := by
  intro final
  refine ⟨fun id => ?_, fun id => ?_, fun others => run_congr start, ?_⟩
  · rw [show final.showsChildren id = _ from showsChildren_run trajectory start steps id]
    cases (trajectory.findSubcall? id).any Tree.hasChildren <;> simp
  · rw [show final.showsTools id = _ from showsTools_run trajectory start steps id]
    cases (trajectory.findSubcall? id).any (·.value.hasToolCalls) <;> simp
  · rintro front step back rfl hidle
    exact (run_insert_of_isIdle hidle start front back).symm

/-- The toggles behind the expansion are done in another order, and an unknown id is left out. -/
theorem run_closedForm_demo :
    let start := Expansion.collapsed.expandAll ["recurse-9"]
    let steps : List Step :=
      [⟨5, .toggleTools "locate"⟩, ⟨3, .expandAll⟩, ⟨3, .toggleChildren "root"⟩,
        ⟨3, .toggleChildren "unknown"⟩, ⟨3, .toggleChildren "recurse-1"⟩]
    let others : List Step :=
      [⟨3, .expandAll⟩, ⟨3, .toggleChildren "unknown"⟩, ⟨3, .toggleChildren "recurse-1"⟩,
        ⟨4, .toggleTools "locate"⟩, ⟨4, .toggleChildren "root"⟩]
    (run demoTrajectory start steps).childrenIds = [] ∧
      run demoTrajectory start others = run demoTrajectory start steps ∧
      run demoTrajectory start (steps.eraseIdx 3) = run demoTrajectory start steps := by
  intro start steps others
  obtain ⟨-, -, hcongr, hidle⟩ := run_closedForm demoTrajectory start steps
  have hunknown : isIdle demoTrajectory (.toggleChildren "unknown") = true := by decide +kernel
  refine ⟨by decide +kernel, hcongr others rfl (fun id => ?_) (fun id => ?_),
    hidle (steps.take 3) _ (steps.drop 4) rfl hunknown⟩
  · have hperm : ((sinceBulk others).map (·.action)).Perm
        (.toggleTools "locate" :: (sinceBulk steps).map (·.action)) := by decide
    rw [isOdd, hperm.count_eq, List.count_cons_of_ne (by simp), isOdd]
  · have hperm : (others.map (·.action)).Perm (steps.map (·.action)) := by decide
    rw [isOdd, hperm.count_eq, isOdd]

/-! ## What can be shown -/

/-- Only ids of subcalls that have children show children, and only ids of subcalls that have tool
calls show tool calls. -/
structure ShowsRecorded (trajectory : Trajectory) (state : Expansion) : Prop where
  children : ∀ id, state.showsChildren id = true →
    ∃ item ∈ trajectory.walk, item.2.value.id = id ∧ item.2.hasChildren = true
  tools : ∀ id, state.showsTools id = true →
    ∃ item ∈ trajectory.walk, item.2.value.id = id ∧ item.2.value.hasToolCalls = true

theorem showsRecorded_collapsed (trajectory : Trajectory) :
    ShowsRecorded trajectory .collapsed where
  children _ h := absurd h Bool.false_ne_true
  tools _ h := absurd h Bool.false_ne_true

/-- If an id leads to a subcall with a property, then a subcall of the walk has the id and the
property. -/
theorem exists_mem_walk_of_any {p : Subcall → Bool} {id : String}
    (h : (trajectory.findSubcall? id).any p = true) :
    ∃ item ∈ trajectory.walk, item.2.value.id = id ∧ p item.2 = true := by
  obtain ⟨subcall, hfound, hp⟩ := (Option.any_eq_true ..).1 h
  obtain ⟨item, hmem, rfl⟩ := trajectory.exists_mem_walk_of_findSubcall? hfound
  exact ⟨item, hmem, trajectory.id_of_findSubcall? hfound, hp⟩

/-- What is shown after all children were expanded or collapsed is recorded. -/
theorem Bulk.exists_mem_walk {bulk : Bulk} {id : String} (h : bulk.shows trajectory id = true) :
    ∃ item ∈ trajectory.walk, item.2.value.id = id ∧ item.2.hasChildren = true := by
  cases bulk with
  | expandAll bound =>
    obtain ⟨subcall, hmem, hsubcall⟩ := exists_of_mem_expandableIds (of_decide_eq_true h)
    rw [← Forest.map_snd_preorder 0, ← trajectory.walk_eq_preorder] at hmem
    obtain ⟨item, hitem, rfl⟩ := List.mem_map.1 hmem
    exact ⟨item, hitem, hsubcall⟩
  | collapseAll => exact absurd h Bool.false_ne_true

/-- Every action keeps what is shown to what is recorded. -/
theorem ShowsRecorded.apply {state : Expansion} (h : ShowsRecorded trajectory state)
    (step : Step) :
    ShowsRecorded trajectory (step.action.apply trajectory step.bound state) where
  children := by
    intro id hshown
    rw [showsChildren_apply] at hshown
    cases hbulk : step.bulk? with
    | some bulk =>
      rw [hbulk] at hshown
      exact bulk.exists_mem_walk hshown
    | none =>
      rw [hbulk] at hshown
      -- The id showed its children before, or it was found and toggled.
      cases hbefore : state.showsChildren id with
      | true => exact h.children id hbefore
      | false =>
        rw [hbefore, Bool.false_xor, Bool.and_eq_true] at hshown
        exact exists_mem_walk_of_any hshown.1
  tools := by
    intro id hshown
    rw [showsTools_apply] at hshown
    cases hbefore : state.showsTools id with
    | true => exact h.tools id hbefore
    | false =>
      rw [hbefore, Bool.false_xor, Bool.and_eq_true] at hshown
      exact exists_mem_walk_of_any hshown.1

/-- Every session does. -/
theorem ShowsRecorded.run {state : Expansion} (h : ShowsRecorded trajectory state)
    (steps : List Step) : ShowsRecorded trajectory (run trajectory state steps) := by
  induction steps generalizing state with
  | nil => exact h
  | cons step steps ih => exact ih (h.apply step)

/-- A session that starts with nothing shows only what is recorded: every id that shows its children
is one of a subcall of the walk that has children, and every id that shows its tool calls is one of
a subcall of the walk that has tool calls. -/
theorem run_shows_recorded (trajectory : Trajectory) (steps : List Step) :
    let final := run trajectory .collapsed steps
    (∀ id ∈ final.childrenIds,
        ∃ item ∈ trajectory.walk, item.2.value.id = id ∧ item.2.hasChildren = true) ∧
      ∀ id ∈ final.toolsIds,
        ∃ item ∈ trajectory.walk, item.2.value.id = id ∧ item.2.value.hasToolCalls = true := by
  intro final
  have recorded := (showsRecorded_collapsed trajectory).run steps
  constructor
  · intro id hid
    exact recorded.children id ((final.mem_childrenIds id).1 hid)
  · intro id hid
    exact recorded.tools id ((final.mem_toolsIds id).1 hid)

/-- An unknown id and a subcall without children leave no trace when they are toggled. -/
theorem run_shows_recorded_demo :
    let final := run demoTrajectory .collapsed [⟨3, .expandAll⟩, ⟨9, .toggleChildren "recurse-5"⟩,
      ⟨9, .toggleChildren "followup"⟩, ⟨9, .toggleTools "unknown"⟩, ⟨9, .toggleTools "locate"⟩]
    final.childrenIds = ["recurse-1", "recurse-5", "root"] ∧ final.toolsIds = ["locate"] ∧
      (∃ item ∈ demoTrajectory.walk, item.2.value.id = "recurse-5" ∧ item.2.hasChildren = true) ∧
      ∃ item ∈ demoTrajectory.walk,
        item.2.value.id = "locate" ∧ item.2.value.hasToolCalls = true := by
  intro final
  have hchildren : final.childrenIds = ["recurse-1", "recurse-5", "root"] := by decide +kernel
  have htools : final.toolsIds = ["locate"] := by decide +kernel
  obtain ⟨hwalk, hwalk'⟩ := run_shows_recorded demoTrajectory
    [⟨3, .expandAll⟩, ⟨9, .toggleChildren "recurse-5"⟩, ⟨9, .toggleChildren "followup"⟩,
      ⟨9, .toggleTools "unknown"⟩, ⟨9, .toggleTools "locate"⟩]
  exact ⟨hchildren, htools, hwalk _ (by rw [hchildren]; simp), hwalk' _ (by rw [htools]; simp)⟩

end Session

end RunTrace
