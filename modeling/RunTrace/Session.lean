import RunTrace.View

/-!
# Sessions

What a user can do with a displayed trajectory, and what the host of the display is told.
-/

namespace RunTrace

/-- Something that the user does. -/
inductive Action where
  | toggleChildren (id : String)
  | toggleTools (id : String)
  | expandAll
  | collapseAll
  | activateSubcall (id : String)
  | activateToolCall (id : String)
  | loadDeeper (id : String)
  deriving DecidableEq, Repr

/-- Something that the host is told. -/
inductive HostEvent where
  | subcallClicked (id : String)
  | toolCallClicked (id : String)
  | loadDeeperRequested (id : String)
  deriving DecidableEq, Repr

namespace Action

/-- The event that an action is for the host, if it is one. -/
def event? : Action → Option HostEvent
  | activateSubcall id => some (.subcallClicked id)
  | activateToolCall id => some (.toolCallClicked id)
  | loadDeeper id => some (.loadDeeperRequested id)
  | _ => none

/-- What is expanded after an action under a bound. Ids that no subcall has are ignored. -/
def apply (trajectory : Trajectory) (bound : UInt32) (state : Expansion) : Action → Expansion
  | toggleChildren id => (trajectory.findSubcall? id).elim state state.toggleChildren
  | toggleTools id => (trajectory.findSubcall? id).elim state state.toggleTools
  | expandAll => state.expandAll (trajectory.expandable bound)
  | collapseAll => state.collapseAll
  | _ => state

end Action

end RunTrace
