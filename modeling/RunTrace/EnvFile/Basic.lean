import RunTrace.EnvFile.Lines
import RunTrace.Text.Alphanumeric

/-!
# Environment files

Environment files assign values to variables, one assignment a line. A value may be quoted, and
outside of single quotes it may have escapes and refer to other variables. A line that is
malformed ends the file, and a variable that is set already keeps its value.
-/

namespace RunTrace.EnvFile

/-- A part of a value. -/
inductive Part where
  | char (c : Char)
  /-- The value of another variable. -/
  | reference (name : String)
  deriving DecidableEq, Repr

/-- An assignment of a value to a variable. -/
structure Assignment where
  name : String
  value : List Part
  deriving DecidableEq, Repr

/-! ## Values -/

/-- Where a reader stands in a value. -/
inductive ValueState where
  /-- Outside of single quotes; between double quotes or not. -/
  | text (quoted : Bool)
  /-- Behind a backslash. -/
  | escape (quoted : Bool)
  /-- Between single quotes. -/
  | single
  /-- In the name behind a dollar sign, of which the given characters are read, the last of them
  first. -/
  | name (quoted : Bool) (done : List Char)
  /-- In a name between braces. -/
  | braced (quoted : Bool) (done : List Char)
  /-- Behind the blank that ends a value. -/
  | ended
  deriving DecidableEq, Repr

/-- The reference to a name, of which the last character comes first. -/
def referenceTo (done : List Char) : Part :=
  .reference (String.ofList done.reverse)

/-- What a character stands for behind a backslash. -/
def unescape? (c : Char) : Option Char :=
  if c = 'n' then some '\n'
  else if c ∈ ['\\', '\'', '"', '$', ' '] then some c
  else none

/-- Where a character of a text that is no name leads to, if it is not part of the value. -/
def turn? (quoted : Bool) (c : Char) : Option ValueState :=
  match c with
  | '$' => some (.name quoted [])
  | '\\' => some (.escape quoted)
  | '"' => some (.text (!quoted))
  | '\'' => if quoted then none else some .single
  | ' ' | '\t' => if quoted then none else some .ended
  | _ => none

/-- Reads a value to its end. There is none if quotes or braces stay open, if an escape is
unknown, or if anything but a comment is behind the value. A name without braces ends in front of
the first character that is no letter or number; this character has no meaning of its own. -/
def readValue : ValueState → List Char → Option (List Part)
  | .text false, [] | .escape false, [] | .ended, [] => some []
  | .name false done, [] => some [referenceTo done]
  | _, [] => none
  | .text quoted, c :: rest =>
    match turn? quoted c with
    | some state => readValue state rest
    | none => (.char c :: ·) <$> readValue (.text quoted) rest
  | .escape quoted, c :: rest => do
    let c ← unescape? c
    (.char c :: ·) <$> readValue (.text quoted) rest
  | .single, c :: rest =>
    if c = '\'' then readValue (.text false) rest else (.char c :: ·) <$> readValue .single rest
  | .name quoted done, c :: rest =>
    if Text.isAlphanumeric c then readValue (.name quoted (c :: done)) rest
    else if c = '\x7b' ∧ done = [] then readValue (.braced quoted []) rest
    else if c = '$' then (referenceTo done :: ·) <$> readValue (.name quoted []) rest
    else ([referenceTo done, .char c] ++ ·) <$> readValue (.text quoted) rest
  | .braced quoted done, c :: rest =>
    if c = '\x7d' then (referenceTo done :: ·) <$> readValue (.text quoted) rest
    else readValue (.braced quoted (c :: done)) rest
  | .ended, c :: rest =>
    if c = ' ' ∨ c = '\t' then readValue .ended rest
    else if c = '#' then some [] else none

/-! ## Lines -/

/-- Reads a name and the blanks behind it. -/
def readName? (text : List Char) : Option (String × List Char) :=
  let name := text.takeWhile fun c => c.isAlphanum || c = '_' || c = '.'
  match name with
  | [] => none
  | c :: _ =>
    if c.isAlpha || c = '_' then
      some (String.ofList name, Text.trimStart (text.drop name.length))
    else none

/-- Reads what is behind a name: an equals sign and a value, which may be missing. -/
def readAssigned? (text : List Char) : Option (List Part) :=
  match text with
  | '=' :: rest =>
    match Text.trimStart rest with
    | [] | '#' :: _ => some []
    | value => readValue (.text false) value
  | _ => none

/-- Reads an assignment, with the word `export` in front or not. -/
def readAssignment? (text : List Char) : Option Assignment := do
  let (first, rest) ← readName? text
  let (name, rest) ←
    if first = "export" ∧ rest.head? ≠ some '=' then readName? rest else some (first, rest)
  let value ← readAssigned? rest
  return { name, value }

/-- The assignments of lines, up to a line that is malformed. Lines without text and comments
are skipped. -/
def assignments : List (List Char) → List Assignment
  | [] => []
  | line :: more =>
    match Text.trim line with
    | [] | '#' :: _ => assignments more
    | text =>
      match readAssignment? text with
      | none => []
      | some assignment => assignment :: assignments more

/-- The assignments of a file. -/
def read (bytes : ByteArray) : List Assignment :=
  assignments (lines bytes)

/-! ## Variables -/

/-- The text of a value, where the given variables are set. A reference to a variable that is not
set stands for nothing. -/
def valueText (environment : List (String × String)) (value : List Part) : String :=
  String.join (value.map fun
    | .char c => String.singleton c
    | .reference name => (environment.lookup name).getD "")

/-- The variables after some assignments. -/
def assign (environment : List (String × String)) : List Assignment → List (String × String)
  | [] => environment
  | ⟨name, value⟩ :: more =>
    if (environment.lookup name).isSome then assign environment more
    else assign ((name, valueText environment value) :: environment) more

/-- The names of all variables that an assignment mentions. -/
def Assignment.names (assignment : Assignment) : List String :=
  assignment.name :: assignment.value.filterMap fun
    | .char _ => none
    | .reference name => some name

end RunTrace.EnvFile
