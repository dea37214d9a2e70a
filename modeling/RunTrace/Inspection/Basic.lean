import RunTrace.Inspection.Failure
import RunTrace.EnvFile.Basic
import RunTrace.Audit
import RunTrace.Outline
import RunTrace.Log

/-!
# Inspections

An inspection prints the outline of a trajectory file. What is expanded is set by an argument and
by variables, of which an environment file can set further ones; the log tells what was loaded,
where the producer's summary disagrees with the subcalls, and how much was expanded.
-/

namespace RunTrace.Inspection

/-- How a program is called. -/
structure Invocation where
  arguments : List String
  /-- The variables that are set. -/
  environment : List (String × String)
  /-- The assignments of the environment file. -/
  assignments : List EnvFile.Assignment

/-- What a program leaves behind. -/
structure Report where
  /-- What is printed as the result. -/
  output : String
  /-- What is printed for whoever runs the program. -/
  diagnostics : String
  /-- Zero for a success. -/
  exitCode : UInt8
  deriving DecidableEq, Repr

/-! ## The initial view -/

/-- Shows the tool calls of all subcalls that hide them and hides those of all others. -/
def toggleAllTools (trajectory : Trajectory) (state : Expansion) : Expansion :=
  trajectory.walk.foldl (fun state (_, subcall) => state.toggleTools subcall) state

/-- What is expanded. -/
def initialExpansion (settings : Settings) (trajectory : Trajectory) : Expansion :=
  let state := match settings.expand with
    | .none => Expansion.collapsed
    | .all => Expansion.collapsed.expandAll (trajectory.expandable settings.bound)
  if settings.showTools then toggleAllTools trajectory state else state

/-- What is printed. -/
def view (settings : Settings) (trajectory : Trajectory) : View :=
  View.render trajectory (initialExpansion settings trajectory) settings.bound false

/-! ## The log -/

/-- The source that log entries name. -/
def source : String := "trajectory_inspect"

/-- The variable of the log filter. -/
def filterVariable : String := "RUST_LOG"

/-- The rank up to which messages are logged if no filter is set. -/
def defaultRank : Nat := LogLevel.info.rank

/-- The rank up to which messages are logged. A filter that is malformed counts as none. -/
def logRank (environment : List (String × String)) : Nat :=
  match (environment.lookup filterVariable).bind LogFilter.ofText? with
  | none => defaultRank
  | some directives => LogFilter.rankFor directives source

/-- A log entry with named values behind its message. -/
def entry (level : LogLevel) (message : String) (values : List (String × String)) : LogEntry :=
  { level
    message := source ++ ": " ++ message
      ++ String.join (values.map fun (name, value) => " " ++ name ++ "=" ++ value) }

/-- What is logged of an inspection. -/
def log (settings : Settings) (trajectory : Trajectory) : List LogEntry :=
  let runId := ("run_id", trajectory.runId)
  let loaded := entry .info "trajectory loaded"
    [runId, ("path", settings.file), ("roots", Decimal.ofNat trajectory.subcalls.length)]
  let audited := if settings.auditSummary then
      ((Totals.ofTrajectory trajectory).discrepancies trajectory).map fun discrepancy =>
        entry .warn ("summary mismatch: " ++ discrepancy.message) [runId]
    else []
  let expanded := match settings.expand with
    | .none => []
    | .all => [entry .info "expand all"
        [("expanded", Decimal.ofNat (trajectory.expandable settings.bound).length),
          ("max_display_depth", Decimal.ofNat settings.bound.toNat)]]
  loaded :: audited ++ expanded

/-- The text of the entries that are selected. -/
def logText (rank : Nat) (entries : List LogEntry) : String :=
  String.join ((entries.filter (·.level.rank ≤ rank)).map (·.text ++ "\n"))

/-! ## Running -/

/-- The settings of an invocation. -/
def Invocation.settings (invocation : Invocation) : Except SettingsError Settings :=
  -- A variable that is set keeps its value, whatever the environment file assigns to it.
  let environment := EnvFile.assign invocation.environment invocation.assignments
  Settings.read invocation.arguments.head? fun name => environment.lookup name

/-- The settings of an invocation and the trajectory of its file. -/
def load (invocation : Invocation) (readFile : String → Except FileError String) :
    Except Failure (Settings × Trajectory) := do
  let settings ← invocation.settings.mapError .settings
  let text ← (readFile settings.file).mapError (.file settings.file)
  let trajectory ← (Trajectory.load text).mapError (.trajectory settings.file)
  return (settings, trajectory)

/-- Inspects a file. The environment file has no influence on what is logged. -/
def run (invocation : Invocation) (readFile : String → Except FileError String) : Report :=
  match load invocation readFile with
  | .error failure => { output := "", diagnostics := failure.text, exitCode := 1 }
  | .ok (settings, trajectory) =>
    { output := Outline.text (view settings trajectory)
      diagnostics := logText (logRank invocation.environment) (log settings trajectory)
      exitCode := 0 }

end RunTrace.Inspection
