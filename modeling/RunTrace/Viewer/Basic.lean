import RunTrace.Viewer.Page
import RunTrace.Log

/-!
# The viewer

A viewer displays the trajectory that its host passes to it and keeps a record of what is
expanded. The record belongs to one trajectory, its owner: while the host passes any other
trajectory, nothing is expanded, and the first action on another trajectory makes that one
the owner, with nothing expanded.
-/

namespace RunTrace

/-- Which events the host wants to be told. -/
structure Handlers where
  subcallClick : Bool
  toolCallClick : Bool
  loadDeeper : Bool
  deriving DecidableEq, Repr

namespace Handlers

/-- The host is told everything. -/
def all : Handlers := ⟨true, true, true⟩

/-- The host is told nothing. -/
def none : Handlers := ⟨false, false, false⟩

/-- Whether the host is told an event. -/
def attached (handlers : Handlers) : HostEvent → Bool
  | .subcallClicked _ => handlers.subcallClick
  | .toolCallClicked _ => handlers.toolCallClick
  | .loadDeeperRequested _ => handlers.loadDeeper

end Handlers

/-- What the host passes to a viewer. -/
structure ViewerProps where
  trajectory : Trajectory
  isLoading : Bool
  bound : UInt32
  handlers : Handlers

/-- Whether nothing tells what the host passes from what it passed before. Zeros of either sign
count as equal. Two handlers are equal only if they are one and the same, and the host here attaches
new ones whenever it passes something; one that kept its handlers would repeat itself with them,
too. -/
def ViewerProps.isRepeated (old new : ViewerProps) : Bool :=
  old.trajectory == new.trajectory && old.isLoading == new.isLoading && old.bound == new.bound
    && old.handlers == .none && new.handlers == .none

/-- A viewer with what its host passed to it. -/
structure Viewer where
  /-- What was passed last that was no repetition of what came before. -/
  props : ViewerProps
  /-- The trajectory that the record belongs to. -/
  owner : Trajectory
  /-- The record of what is expanded. -/
  expansion : Expansion

/-- What follows from an action: what the host is told, and what is logged. -/
structure Consequences where
  events : List HostEvent
  log : List LogEntry
  deriving DecidableEq, Repr

namespace Viewer

/-- A new viewer. -/
def mount (props : ViewerProps) : Viewer :=
  ⟨props, props.trajectory, .collapsed⟩

/-- The viewer after the host has passed something. A repetition has no effect. -/
def setProps (viewer : Viewer) (props : ViewerProps) : Viewer :=
  if viewer.props.isRepeated props then viewer else { viewer with props }

/-- What is expanded of the trajectory that is displayed. -/
def currentExpansion (viewer : Viewer) : Expansion :=
  if viewer.owner == viewer.props.trajectory then viewer.expansion else .collapsed

/-- What is displayed. -/
def view (viewer : Viewer) : View :=
  View.render viewer.props.trajectory viewer.currentExpansion viewer.props.bound
    viewer.props.isLoading

/-- The page that is displayed. -/
def markup (viewer : Viewer) : Markup Action :=
  Page.markup viewer.props.handlers.loadDeeper viewer.view

/-- The viewer after an action. -/
def act (viewer : Viewer) (action : Action) : Viewer :=
  let trajectory := viewer.props.trajectory
  { viewer with
    -- An owner that equals the trajectory stays, though zeros in it may be of the other sign.
    owner := if viewer.owner == trajectory then viewer.owner else trajectory
    expansion := action.apply trajectory viewer.props.bound viewer.currentExpansion }

/-- What is logged of an action, if anything: how much was expanded, or that nobody is there to
load deeper levels. -/
def logEntry? (viewer : Viewer) (action : Action) : Option LogEntry :=
  match action with
  | .expandAll => some ⟨.debug, "Expanded "
      ++ Decimal.ofNat (viewer.act action).expansion.childrenIds.length
      ++ " subcalls in run " ++ viewer.props.trajectory.runId⟩
  | .loadDeeper id =>
    if viewer.props.handlers.loadDeeper then none
    else some ⟨.warn, "Load deeper requested for " ++ id ++ " but no handler is attached"⟩
  | _ => none

/-- What follows from an action. -/
def consequences (viewer : Viewer) (action : Action) : Consequences :=
  { events := (action.event?.filter viewer.props.handlers.attached).toList
    log := (viewer.logEntry? action).toList }

end Viewer

end RunTrace
