import RunTrace.Settings
import RunTrace.Format.Load

/-!
# Why an inspection fails

The failures of an inspection, and how they are reported: what could not be done, and the chain
of causes for that.
-/

namespace RunTrace

/-- Why a text file cannot be read. -/
inductive FileError where
  | notFound
  | isDirectory
  | notDirectory
  | nameTooLong
  /-- The file is not valid UTF-8. -/
  | notText
  /-- Another problem, in the words of the system. -/
  | other (description : String)
  deriving DecidableEq, Repr

/-- The text shown for an error. -/
def FileError.message : FileError → String
  | notFound => "No such file or directory (os error 2)"
  | isDirectory => "Is a directory (os error 21)"
  | notDirectory => "Not a directory (os error 20)"
  | nameTooLong => "File name too long (os error 36)"
  | notText => "stream did not contain valid UTF-8"
  | other description => description

/-- The errors that a load error is told as: a problem with the text is told twice, first as a
problem with the file and then by itself. -/
def LoadError.chain (error : LoadError) : List String :=
  match error with
  | .unreadable cause => [error.message, cause.message]
  | .invalid _ => [error.message]

namespace Inspection

/-- Why an inspection fails. -/
inductive Failure where
  | settings (error : SettingsError)
  | file (path : String) (error : FileError)
  | trajectory (path : String) (error : LoadError)

namespace Failure

/-- What could not be done. -/
def summary : Failure → String
  | settings error => error.message
  | file path _ => "failed to read trajectory file " ++ path
  | trajectory path _ => "invalid trajectory in " ++ path

/-- The causes of a failure, each of them the cause of the one before it. -/
def causes : Failure → List String
  | settings _ => []
  | file _ error => [error.message]
  | trajectory _ error => error.chain

/-- A text with a mark in front and further lines indented as far as its first one. -/
def marked (mark text : String) : String :=
  let indentation := List.replicate mark.length ' '
  mark ++ String.ofList (text.toList.flatMap fun c => if c = '\n' then c :: indentation else [c])

/-- The lines of causes, which are numbered if there are several of them. -/
def causeTexts (causes : List String) : List String :=
  match causes with
  | [cause] => [marked "    " cause]
  | causes => causes.mapIdx fun number cause =>
    marked ("    " ++ Decimal.ofNat number ++ ": ") cause

/-- The text shown for a failure. -/
def text (failure : Failure) : String :=
  "Error: " ++ failure.summary ++ "\n"
    ++ if failure.causes.isEmpty then ""
      else "\nCaused by:\n" ++ String.join ((causeTexts failure.causes).map (· ++ "\n"))

end Failure

end Inspection

end RunTrace
