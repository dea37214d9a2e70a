import RunTrace.Format.Schema
import RunTrace.Json.Literal
import RunTrace.Timestamp.Reader
import RunTrace.Text.Quoted

/-!
# Why a trajectory file cannot be read

The problems that a text can have as a trajectory file, and how each is told.
-/

namespace RunTrace.Format

/-- What was found in a place where something else was expected. -/
inductive Found where
  | null
  | boolean (value : Bool)
  | integer (value : Int)
  | floating (value : Float)
  | text (value : String)
  | sequence
  | map

/-- How a value that was found is told. -/
def Found.describe : Found → String
  | null => "null"
  | boolean true => "boolean `true`"
  | boolean false => "boolean `false`"
  | integer value => "integer `" ++ Decimal.ofInt value ++ "`"
  | floating value => "floating point `" ++ Json.NumberLiteral.floatLayout.float value ++ "`"
  | text value => "string " ++ Text.quoted value
  | sequence => "sequence"
  | map => "map"

/-- What was expected in some place. -/
inductive Expected where
  | record (of : Record)
  | text
  | instant
  | sequence
  | word32
  | word64
  | real
  | unit
  deriving DecidableEq, Repr

/-- How an expectation is told. -/
def Expected.describe : Expected → String
  | record kind => "struct " ++ kind.name
  | text => "a string"
  | instant => "an RFC 3339 formatted date and time string"
  | sequence => "a sequence"
  | word32 => "u32"
  | word64 => "u64"
  | real => "f64"
  | unit => "unit"

/-- Why a text is no trajectory file. -/
inductive ReadError where
  /-- The text is no JSON. -/
  | malformed (error : Json.SyntaxError)
  /-- A value is of another kind than expected. -/
  | wrongType (found : Found) (expected : Expected)
  /-- An integer does not fit the field. -/
  | wordOutOfRange (value : Int) (expected : Expected)
  /-- A record in positional form ends in front of a field that may not be left out. -/
  | tooFewItems (record : Record) (position : Nat)
  /-- A field that may not be left out is absent. -/
  | missingField (key : String)
  /-- A field occurs a second time. -/
  | duplicateField (key : String)
  /-- There is no outcome of this name. -/
  | unknownOutcome (name : String)
  /-- A text is no timestamp. -/
  | timestamp (error : Timestamp.ReadError)

/-- The text shown for an error. -/
def ReadError.message : ReadError → String
  | malformed error => error.message
  | wrongType found expected =>
    "invalid type: " ++ found.describe ++ ", expected " ++ expected.describe
  | wordOutOfRange value expected =>
    "invalid value: " ++ (Found.integer value).describe ++ ", expected " ++ expected.describe
  | tooFewItems record position =>
    "invalid length " ++ Decimal.ofNat position ++ ", expected struct " ++ record.name
      ++ " with " ++ Decimal.ofNat record.fields.length ++ " elements"
  | missingField key => "missing field `" ++ key ++ "`"
  | duplicateField key => "duplicate field `" ++ key ++ "`"
  | unknownOutcome name =>
    "unknown variant `" ++ name ++ "`, expected one of "
      ++ ", ".intercalate (Outcome.all.map fun outcome => "`" ++ outcome.name ++ "`")
  | timestamp error => error.message

end RunTrace.Format
