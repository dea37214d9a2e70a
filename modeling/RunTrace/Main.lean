import RunTrace.Inspection.Basic

/-!
# The command line

`main` prints the outline of a trajectory file.
-/

namespace RunTrace.CommandLine

open Inspection

/-- The number of a problem of the system, from a code that is this number or its negation. -/
def problemNumber (code : UInt32) : UInt32 :=
  min code (0 - code)

/-- The error that a problem of the system is. -/
def fileError (error : IO.Error) : FileError :=
  match error with
  | .noFileOrDirectory .. => .notFound
  | .inappropriateType _ code _ => if problemNumber code = 21 then .isDirectory else .notDirectory
  | .invalidArgument _ code _ =>
    if problemNumber code = 36 then .nameTooLong else .other (toString error)
  | _ => .other (toString error)

/-- Reads a file. -/
def readBytes (path : String) : IO (Except FileError ByteArray) := do
  try
    return .ok (← IO.FS.readBinFile path)
  catch error => return .error (fileError error)

/-- Reads a text file. -/
def readText (path : String) : IO (Except FileError String) := do
  match ← readBytes path with
  | .error error => return .error error
  | .ok bytes => return ((String.fromUTF8? bytes).elim (.error .notText) .ok)

/-- The assignments of the environment file in the current directory or the closest one above it
that has such a file. -/
def assignments : IO (List EnvFile.Assignment) := do
  let mut directory? := some (← IO.currentDir)
  repeat
    let some directory := directory? | break
    let file := directory / ".env"
    if ← file.pathExists then
      match ← readBytes file.toString with
      | .ok bytes => return EnvFile.read bytes
      | .error _ => break
    directory? := directory.parent
  return []

/-- The variables that have an influence on an inspection. -/
def environment (assignments : List EnvFile.Assignment) : IO (List (String × String)) := do
  let names := filterVariable :: Settings.variableNames ++ assignments.flatMap (·.names)
  return (← names.mapM fun name => do return (← IO.getEnv name).map (name, ·)).filterMap id

end RunTrace.CommandLine

open RunTrace RunTrace.CommandLine in
/-- Inspects the trajectory file that an argument or a variable names. -/
def main (arguments : List String) : IO UInt32 := do
  let assignments ← assignments
  let environment ← environment assignments
  let invocation : Inspection.Invocation := { arguments, environment, assignments }
  let contents ← match invocation.settings with
    | .ok settings => readText settings.file
    | .error _ => pure (.error .notFound)
  let report := Inspection.run invocation fun _ => contents
  (← IO.getStderr).putStr report.diagnostics
  (← IO.getStdout).putStr report.output
  return report.exitCode.toUInt32
