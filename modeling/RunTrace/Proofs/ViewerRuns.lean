import Mathlib.Data.List.DropRight
import RunTrace.Proofs.Comparison
import RunTrace.Viewer.Basic
import RunTrace.Viewer.DemoTrajectory

/-!
# Runs of a viewer

A viewer keeps one record of what is expanded, and looks at it only while the trajectory that it
belongs to is displayed. The history of a run knows nothing of that record: it is what the host
passed last and which actions there were, each with what had been passed by then. Here the record
is shown to be what the history makes of it: the actions since the trajectory was last another
one, applied in order to a record of nothing.

## Main results

* `ViewerRun.follows_ofInputs`: a run follows its history, whatever happens;
* `view_ofInputs`: what is displayed, and what the host is told;
* `view_changed`: when a trajectory that replaces another one is displayed collapsed, and when
  what was expanded of it before appears again.
-/

namespace RunTrace

/-! ## Runs and their histories -/

/-- Something that happens to a viewer. -/
inductive ViewerInput where
  /-- The host passes something. -/
  | pass (props : ViewerProps)
  /-- The user does something. -/
  | dispatch (action : Action)

/-- A run of a viewer up to some point. -/
structure ViewerRun where
  viewer : Viewer
  /-- What the host has been told, first things first. -/
  told : List HostEvent

namespace ViewerRun

/-- The run one input later. -/
def step (run : ViewerRun) : ViewerInput → ViewerRun
  | .pass props => { run with viewer := run.viewer.setProps props }
  | .dispatch action =>
    { viewer := run.viewer.act action
      told := run.told ++ (run.viewer.consequences action).events }

/-- The run of a viewer that is mounted and then receives inputs. -/
def ofInputs (mounted : ViewerProps) (inputs : List ViewerInput) : ViewerRun :=
  inputs.foldl step ⟨.mount mounted, []⟩

end ViewerRun

/-- An action with what the host had passed last when it was dispatched. -/
structure Dispatch where
  given : ViewerProps
  action : Action

/-- What the host is told of an action, if it has attached a handler for that. -/
def Dispatch.call? (dispatch : Dispatch) : Option HostEvent :=
  let handlers := dispatch.given.handlers
  match dispatch.action with
  | .activateSubcall id => if handlers.subcallClick then some (.subcallClicked id) else none
  | .activateToolCall id => if handlers.toolCallClick then some (.toolCallClicked id) else none
  | .loadDeeper id => if handlers.loadDeeper then some (.loadDeeperRequested id) else none
  | .toggleChildren _ | .toggleTools _ | .expandAll | .collapseAll => none

/-- What happened to a viewer up to some point. -/
structure ViewerHistory where
  /-- What the host passed last. -/
  given : ViewerProps
  /-- The actions, first things first. -/
  dispatches : List Dispatch

namespace ViewerHistory

/-- The history one input later. -/
def step (history : ViewerHistory) : ViewerInput → ViewerHistory
  | .pass props => { history with given := props }
  | .dispatch action =>
    { history with dispatches := history.dispatches ++ [⟨history.given, action⟩] }

/-- The history of a viewer that is mounted and then receives inputs. -/
def ofInputs (mounted : ViewerProps) (inputs : List ViewerInput) : ViewerHistory :=
  inputs.foldl step ⟨mounted, []⟩

/-- The actions dispatched under a trajectory since the last one under any other. -/
def since (history : ViewerHistory) (trajectory : Trajectory) : List Dispatch :=
  history.dispatches.rtakeWhile (·.given.trajectory == trajectory)

/-- What these actions expand of the trajectory, each under the bound of its time. -/
def replay (history : ViewerHistory) (trajectory : Trajectory) : Expansion :=
  (history.since trajectory).foldl
    (fun state dispatch => dispatch.action.apply trajectory dispatch.given.bound state) .collapsed

end ViewerHistory

/-! ## What is in use and what was passed -/

/-- What a viewer uses while something was passed last: that itself, or something that nothing
tells it from. -/
def ViewerProps.UsedFor (used given : ViewerProps) : Prop :=
  used = given ∨ used.isRepeated given = true

namespace ViewerProps.UsedFor

variable {used given : ViewerProps}

/-- Nothing but the trajectory can differ, and trajectories differ only if no handlers are
attached. -/
theorem options_eq (h : used.UsedFor given) :
    used.bound = given.bound ∧ used.isLoading = given.isLoading ∧
      used.handlers = given.handlers := by
  rcases h with rfl | h
  · exact ⟨rfl, rfl, rfl⟩
  · simp only [isRepeated, Bool.and_eq_true, beq_iff_eq] at h
    obtain ⟨⟨⟨⟨-, hloading⟩, hbound⟩, hnone⟩, hnone'⟩ := h
    exact ⟨hbound, hloading, hnone.trans hnone'.symm⟩

/-- The trajectory in use equals others just as the one that was passed does. -/
theorem trajectory_beq (h : used.UsedFor given) (other : Trajectory) :
    (used.trajectory == other) = (given.trajectory == other) := by
  rcases h with rfl | h
  · rfl
  · simp only [isRepeated, Bool.and_eq_true] at h
    exact BEq.congr_left h.1.1.1.1

end ViewerProps.UsedFor

/-- Whatever is passed is what is used for it. -/
theorem Viewer.usedFor_setProps (viewer : Viewer) (props : ViewerProps) :
    (viewer.setProps props).props.UsedFor props := by
  unfold setProps
  split
  · next h => exact .inr h
  · exact .inl rfl

/-! ## The record -/

namespace Viewer

/-- What is expanded of a trajectory as long as that is displayed. -/
def expansionOf (viewer : Viewer) (trajectory : Trajectory) : Expansion :=
  if viewer.owner == trajectory then viewer.expansion else .collapsed

theorem expansionOf_setProps (viewer : Viewer) (props : ViewerProps) (trajectory : Trajectory) :
    (viewer.setProps props).expansionOf trajectory = viewer.expansionOf trajectory := by
  unfold setProps
  split <;> rfl

theorem expansionOf_congr (viewer : Viewer) {trajectory other : Trajectory}
    (h : (trajectory == other) = true) :
    viewer.expansionOf trajectory = viewer.expansionOf other := by
  rw [expansionOf, BEq.congr_right h]
  rfl

/-- After an action the record belongs to the trajectory that is in use. -/
theorem owner_act_beq (viewer : Viewer) (action : Action) (trajectory : Trajectory) :
    ((viewer.act action).owner == trajectory) = (viewer.props.trajectory == trajectory) := by
  change ((if viewer.owner == viewer.props.trajectory then _ else _) == trajectory) = _
  split
  · next h => exact BEq.congr_left h
  · rfl

/-- An action has its effect on what is expanded of the trajectory in use, and what was expanded of
any other is forgotten. -/
theorem expansionOf_act (viewer : Viewer) (action : Action) (trajectory : Trajectory) :
    (viewer.act action).expansionOf trajectory =
      if viewer.props.trajectory == trajectory then
        action.apply trajectory viewer.props.bound (viewer.expansionOf trajectory)
      else .collapsed := by
  rw [expansionOf, owner_act_beq]
  split
  · next h =>
    -- The action looked its ids up in the trajectory in use, which only compares equal to this one.
    rw [← viewer.expansionOf_congr h, ← Action.apply_congr h]
    rfl
  · rfl

end Viewer

namespace ViewerHistory

theorem replay_dispatch (history : ViewerHistory) (action : Action) (trajectory : Trajectory) :
    (history.step (.dispatch action)).replay trajectory =
      if history.given.trajectory == trajectory then
        action.apply trajectory history.given.bound (history.replay trajectory)
      else .collapsed := by
  rw [replay, since, step, List.rtakeWhile_concat]
  split
  · rw [List.foldl_append]
    rfl
  · rfl

end ViewerHistory

/-- What the host is told of an action depends on the handlers alone. -/
theorem Viewer.events_eq (viewer : Viewer) {given : ViewerProps}
    (h : viewer.props.handlers = given.handlers) (action : Action) :
    (viewer.consequences action).events = (Dispatch.call? ⟨given, action⟩).toList := by
  unfold consequences Dispatch.call?
  rw [h]
  cases action <;> rfl

/-! ## Runs follow their histories -/

namespace ViewerRun

/-- A run is what its history says. -/
structure Follows (run : ViewerRun) (history : ViewerHistory) : Prop where
  used : run.viewer.props.UsedFor history.given
  /-- Of every trajectory, if it were displayed, the actions since the last one under another one
  would be seen. -/
  expansion : ∀ trajectory, run.viewer.expansionOf trajectory = history.replay trajectory
  told : run.told = history.dispatches.filterMap Dispatch.call?

theorem follows_mount (mounted : ViewerProps) :
    Follows ⟨.mount mounted, []⟩ ⟨mounted, []⟩ where
  used := .inl rfl
  expansion _ := ite_self _
  told := rfl

/-- Every input keeps a run to its history. -/
theorem Follows.step {run : ViewerRun} {history : ViewerHistory} (h : run.Follows history)
    (input : ViewerInput) : (run.step input).Follows (history.step input) := by
  obtain ⟨hbound, -, hhandlers⟩ := h.used.options_eq
  cases input with
  | pass props =>
    refine ⟨run.viewer.usedFor_setProps props, fun trajectory => ?_, h.told⟩
    exact (run.viewer.expansionOf_setProps props trajectory).trans (h.expansion trajectory)
  | dispatch action =>
    refine ⟨h.used, fun trajectory => ?_, ?_⟩
    · rw [ViewerHistory.replay_dispatch, ← h.used.trajectory_beq, ← hbound, ← h.expansion]
      exact run.viewer.expansionOf_act action trajectory
    · change run.told ++ (run.viewer.consequences action).events = _
      rw [run.viewer.events_eq hhandlers, h.told, ViewerHistory.step, List.filterMap_append]
      cases hcall : Dispatch.call? ⟨history.given, action⟩ <;> simp [hcall]

/-- A run follows its history, whatever happens. -/
theorem follows_ofInputs (mounted : ViewerProps) (inputs : List ViewerInput) :
    (ofInputs mounted inputs).Follows (.ofInputs mounted inputs) := by
  -- Inputs are taken from the front, so what is kept must hold wherever the rest of them starts.
  have hrun : ∀ {run : ViewerRun} {history : ViewerHistory}, run.Follows history →
      (inputs.foldl ViewerRun.step run).Follows (inputs.foldl ViewerHistory.step history) := by
    induction inputs with
    | nil => exact fun h => h
    | cons input inputs ih => exact fun h => ih (h.step input)
  exact hrun (follows_mount mounted)

/-- What is displayed is what the history expands of the trajectory in use. -/
theorem Follows.view_eq {run : ViewerRun} {history : ViewerHistory} (h : run.Follows history) :
    run.viewer.view =
      View.render run.viewer.props.trajectory (history.replay run.viewer.props.trajectory)
        history.given.bound history.given.isLoading := by
  obtain ⟨hbound, hloading, -⟩ := h.used.options_eq
  rw [← h.expansion, ← hbound, ← hloading]
  rfl

end ViewerRun

/-- At any point of a run, the tree displayed is the one that the history tells of: the actions
dispatched under the trajectory since the last one under any other have been applied to a record
of nothing, each under the bound of its time. The trajectory is the one passed last, or if no
handlers are attached perhaps one that nothing tells from it. The host has been told once of each
action that it has a handler for, and of nothing else. What has been loaded equals itself, so the
actions dispatched under it do count. -/
theorem view_ofInputs (mounted : ViewerProps) (inputs : List ViewerInput) :
    let run := ViewerRun.ofInputs mounted inputs
    let history := ViewerHistory.ofInputs mounted inputs
    let trajectory := run.viewer.props.trajectory
    run.viewer.view =
        View.render trajectory (history.replay trajectory) history.given.bound
          history.given.isLoading ∧
      run.viewer.props.UsedFor history.given ∧
      run.told = history.dispatches.filterMap Dispatch.call? ∧
      ∀ text loaded, Trajectory.load text = .ok loaded → (loaded == loaded) = true := by
  intro run history trajectory
  have follows := ViewerRun.follows_ofInputs mounted inputs
  exact ⟨follows.view_eq, follows.used, follows.told, fun _ _ => Trajectory.beq_self_of_load⟩

/-- The props of a viewer of a trajectory with all handlers attached. -/
def ViewerProps.attached (trajectory : Trajectory) (bound : UInt32) : ViewerProps :=
  ⟨trajectory, false, bound, .all⟩

/-- A row of the other run was activated in between, so only what was toggled after that is seen of
the demo trajectory. -/
theorem view_ofInputs_demo :
    let other := { demoTrajectory with runId := "run-other" }
    let run := ViewerRun.ofInputs (.attached demoTrajectory 3)
      [.dispatch .expandAll, .pass (.attached other 3), .dispatch (.activateSubcall "root"),
        .pass (.attached demoTrajectory 3), .dispatch (.toggleTools "root")]
    run.viewer.view.visibleRows.map (fun row => (row.id, row.childrenExpanded, row.toolsExpanded)) =
        [("root", false, true), ("followup", false, false)] ∧
      run.told = [.subcallClicked "root"] := by
  intro other run
  obtain ⟨hview, -, htold, -⟩ := view_ofInputs (.attached demoTrajectory 3)
    [.dispatch .expandAll, .pass (.attached other 3), .dispatch (.activateSubcall "root"),
      .pass (.attached demoTrajectory 3), .dispatch (.toggleTools "root")]
  refine ⟨?_, htold.trans (by decide +kernel)⟩
  rw [show run.viewer.view = _ from hview]
  decide +kernel

/-! ## Changes of the trajectory -/

namespace ViewerHistory

/-- Nothing is expanded of a trajectory that the last action was not dispatched under. -/
theorem replay_of_getLast? {history : ViewerHistory} {trajectory : Trajectory}
    (h : ∀ dispatch ∈ history.dispatches.getLast?,
      (dispatch.given.trajectory == trajectory) = false) :
    history.replay trajectory = .collapsed := by
  have hnone : history.since trajectory = [] := by
    refine List.rtakeWhile_eq_nil_iff.2 fun hne hequal => ?_
    rw [h _ (List.getLast?_eq_some_getLast hne)] at hequal
    exact Bool.false_ne_true hequal
  rw [replay, hnone]
  rfl

/-- Passing something is no action, so it has no part in what is replayed. -/
theorem replay_pass (history : ViewerHistory) (passed : List ViewerProps)
    (trajectory : Trajectory) :
    ((passed.map .pass).foldl step history).replay trajectory = history.replay trajectory := by
  induction passed generalizing history with
  | nil => rfl
  | cons props passed ih => exact ih (history.step (.pass props))

end ViewerHistory

/-- A trajectory is displayed collapsed unless the last action was dispatched under it. So one that
replaces another is displayed collapsed at first, except that what was expanded of it before
appears again if there was no action while others were displayed. -/
theorem view_changed (mounted : ViewerProps) (inputs : List ViewerInput) :
    let viewer := (ViewerRun.ofInputs mounted inputs).viewer
    let history := ViewerHistory.ofInputs mounted inputs
    let trajectory := viewer.props.trajectory
    ((∀ dispatch ∈ history.dispatches.getLast?,
        (dispatch.given.trajectory == trajectory) = false) →
      viewer.view =
        View.render trajectory .collapsed history.given.bound history.given.isLoading) ∧
    ∀ passed : List ViewerProps,
      let later := (ViewerRun.ofInputs mounted (inputs ++ passed.map .pass)).viewer
      (later.props.trajectory == trajectory) = true →
        later.currentExpansion = viewer.currentExpansion := by
  intro viewer history trajectory
  have follows := ViewerRun.follows_ofInputs mounted inputs
  constructor
  · intro hlast
    rw [follows.view_eq, ViewerHistory.replay_of_getLast? hlast]
  · intro passed later hback
    have follows' := ViewerRun.follows_ofInputs mounted (inputs ++ passed.map .pass)
    calc later.expansionOf later.props.trajectory
        = later.expansionOf trajectory := later.expansionOf_congr hback
      _ = (ViewerHistory.ofInputs mounted (inputs ++ passed.map .pass)).replay trajectory :=
          follows'.expansion trajectory
      _ = history.replay trajectory := by
          rw [ViewerHistory.ofInputs, List.foldl_append]
          exact history.replay_pass passed trajectory
      _ = viewer.expansionOf trajectory := (follows.expansion trajectory).symm

/-- It is not so that whatever the host passes instead of another trajectory is displayed collapsed
until there is an action: the root of the demo trajectory is expanded, another run is passed, and
when the demo trajectory is passed again its root is still expanded. -/
theorem changedBack_not_collapsed :
    ¬ ∀ (mounted : ViewerProps) (inputs : List ViewerInput) (new : ViewerProps),
      (∀ props, props = mounted ∨ .pass props ∈ inputs ∨ props = new →
        ∃ text, Trajectory.load text = .ok props.trajectory) →
      ((ViewerHistory.ofInputs mounted inputs).given.trajectory == new.trajectory) = false →
      (ViewerRun.ofInputs mounted (inputs ++ [.pass new])).viewer.view =
        View.render new.trajectory .collapsed new.bound new.isLoading := by
  intro h
  let demo := ViewerProps.attached demoTrajectory defaultBound
  let other := ViewerProps.attached { demoTrajectory with runId := "run-other" } defaultBound
  have hview := h demo [.dispatch (.toggleChildren "root"), .pass other] demo ?_ (by decide +kernel)
  · exact absurd (congrArg View.visibleIds hview) (by decide +kernel)
  · intro props hprops
    have hcases : props = demo ∨ props = other := by simpa [or_comm] using hprops
    rcases hcases with rfl | rfl
    · exact ⟨_, load_demoTrajectory demoTrajectory.runId⟩
    · exact ⟨_, load_demoTrajectory "run-other"⟩

end RunTrace
