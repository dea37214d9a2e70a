import RunTrace.View
import RunTrace.Decimal.Word

/-!
# Settings

What the inspector is told by its argument and its variables: which file to inspect, and how.
The settings are read in a fixed order, and the first one that is not valid is reported.
-/

namespace RunTrace

/-- How much is expanded at first. -/
inductive ExpandMode where
  /-- The roots only. -/
  | none
  /-- Everything within the bound. -/
  | all
  deriving DecidableEq, Repr

/-- The name of a mode. -/
def ExpandMode.name : ExpandMode → String
  | none => "none"
  | all => "all"

/-- The settings of the inspector. -/
structure Settings where
  /-- The file to inspect. -/
  file : String
  /-- The number of levels that are displayed. -/
  bound : UInt32
  /-- How much is expanded. -/
  expand : ExpandMode
  /-- Whether tool calls are shown. -/
  showTools : Bool
  /-- Whether the producer's summary is compared with the subcalls. -/
  auditSummary : Bool
  deriving DecidableEq, Repr

/-- Why settings are not accepted. -/
inductive SettingsError where
  /-- There is neither an argument nor a variable for the file. -/
  | noFile
  /-- A variable should hold a number. -/
  | invalidNumber (name value : String) (error : Decimal.WordError)
  /-- The bound is zero. -/
  | zeroBound
  /-- There is no mode of this name. -/
  | invalidMode (value : String)
  /-- A variable should hold a truth value. -/
  | invalidTruth (name value : String)
  deriving DecidableEq, Repr

namespace Settings

/-- The variable of the file. -/
def fileVariable : String := "TRAJECTORY_FILE"

/-- The variable of the number of levels. -/
def boundVariable : String := "TRAJECTORY_MAX_DISPLAY_DEPTH"

/-- The variable of how much is expanded. -/
def expandVariable : String := "TRAJECTORY_EXPAND"

/-- The variable of whether tool calls are shown. -/
def showToolsVariable : String := "TRAJECTORY_SHOW_TOOLS"

/-- The variable of whether the summary is audited. -/
def auditVariable : String := "TRAJECTORY_AUDIT_SUMMARY"

/-- The names of all variables. -/
def variableNames : List String :=
  [fileVariable, boundVariable, expandVariable, showToolsVariable, auditVariable]

end Settings

/-- The text shown for an error. -/
def SettingsError.message : SettingsError → String
  | noFile => "No trajectory given. Pass a path or set " ++ Settings.fileVariable
  | invalidNumber name value error =>
    "Failed to parse env var " ++ name ++ "=" ++ value ++ ": " ++ error.message
  | zeroBound => Settings.boundVariable ++ " must be at least 1"
  | invalidMode value =>
    "Invalid " ++ Settings.expandVariable ++ " '" ++ value ++ "'. Expected 'none' or 'all'"
  | invalidTruth name value =>
    "Failed to parse env var " ++ name ++ "=" ++ value
      ++ ": provided string was not `true` or `false`"

namespace Settings

/-- The number of levels that a variable holds. -/
def readBound (value? : Option String) : Except SettingsError UInt32 := do
  match value? with
  | none => return defaultBound
  | some value =>
    let bound ← (Decimal.readWord value).mapError (.invalidNumber boundVariable value)
    if bound = 0 then throw .zeroBound else return bound

/-- The mode that a variable holds. -/
def readMode (value? : Option String) : Except SettingsError ExpandMode :=
  match value? with
  | none => .ok .all
  | some value =>
    if value = ExpandMode.none.name then .ok .none
    else if value = ExpandMode.all.name then .ok .all
    else .error (.invalidMode value)

/-- The truth value that a variable holds. -/
def readTruth (name : String) (default : Bool) (value? : Option String) :
    Except SettingsError Bool :=
  match value? with
  | none => .ok default
  | some value =>
    if value = "true" then .ok true
    else if value = "false" then .ok false
    else .error (.invalidTruth name value)

/-- The settings of an argument and of the values of variables. The argument has priority over
the variable of the file. -/
def read (argument? : Option String) (value? : String → Option String) :
    Except SettingsError Settings := do
  let some file := argument?.or (value? fileVariable) | throw .noFile
  let bound ← readBound (value? boundVariable)
  let expand ← readMode (value? expandVariable)
  let showTools ← readTruth showToolsVariable false (value? showToolsVariable)
  let auditSummary ← readTruth auditVariable true (value? auditVariable)
  return { file, bound, expand, showTools, auditSummary }

end Settings

end RunTrace
