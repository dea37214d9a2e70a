import RunTrace.Viewer.Basic
import RunTrace.Format.Load

/-!
# The demo page

A page that displays one trajectory and says what was selected last, or says why there is no
trajectory to display.
-/

namespace RunTrace

/-- What can be selected on the demo page. -/
inductive Selection where
  | subcall (id : String)
  | toolCall (id : String)
  deriving DecidableEq, Repr

namespace Selection

/-- The selection that an event is, if it is one. -/
def ofEvent? : HostEvent → Option Selection
  | .subcallClicked id => some (subcall id)
  | .toolCallClicked id => some (toolCall id)
  | .loadDeeperRequested _ => none

/-- How a selection is shown. -/
def text : Selection → String
  | subcall id => "subcall " ++ id
  | toolCall id => "tool call " ++ id

/-- How a selection is logged. -/
def logEntry : Selection → LogEntry
  | subcall id => ⟨.info, "Subcall selected: " ++ id⟩
  | toolCall id => ⟨.info, "Tool call selected: " ++ id⟩

end Selection

/-- The demo page. -/
inductive DemoPage where
  /-- A trajectory is displayed. -/
  | shown (viewer : Viewer) (selection : Option Selection)
  /-- There is no trajectory to display. -/
  | failed (message : String)

namespace DemoPage

/-- The demo page selects what is clicked; it cannot load deeper levels. -/
def handlers : Handlers := ⟨true, true, false⟩

/-- The page of a trajectory, if it was loaded, and what is logged of that. -/
def mount (loaded : Except LoadError Trajectory) : DemoPage × List LogEntry :=
  match loaded with
  | .ok trajectory => (.shown (.mount ⟨trajectory, false, defaultBound, handlers⟩) none, [])
  | .error error =>
    (.failed error.message, [⟨.error, "Failed to load demo trajectory: " ++ error.message⟩])

/-- The markup of the page. -/
def markup : DemoPage → Markup Action
  | shown viewer selection =>
    .element
      ⟨"div", [.text "style" "padding: 1rem; max-width: 960px; margin: 0 auto;"], none⟩
      (.element ⟨"h3", [], none⟩ (.ofText "RLM Trajectory") .nil
        ++ selection.elim .nil (fun selected =>
          .tagged "p" ["rlm-selection"] (.ofText ("Selected: " ++ selected.text)))
        ++ viewer.markup)
      .nil
  | failed message =>
    .tagged "div" ["empty-state"]
      (.element ⟨"p", [], none⟩ (.ofText ("Could not load trajectory: " ++ message)) .nil)

/-- The page after an action, and what is logged. -/
def act (page : DemoPage) (action : Action) : DemoPage × List LogEntry :=
  match page with
  | shown viewer selection =>
    let after := viewer.consequences action
    let selected := after.events.filterMap Selection.ofEvent?
    (.shown (viewer.act action) (selected.getLast?.or selection),
      after.log ++ selected.map (·.logEntry))
  | failed message => (.failed message, [])

end DemoPage

end RunTrace
