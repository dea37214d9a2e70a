import RunTrace.Text.Blank

/-!
# Lines of an environment file

A line of an environment file ends at a line break outside of quotes, so a quoted value can go
over several lines. A comment behind a blank is left out, and of a line that is nothing but a
comment nothing is left.
-/

namespace RunTrace.EnvFile

/-- Where a reader stands in a line. -/
inductive LineState where
  /-- Outside of quotes. -/
  | plain
  /-- Outside of quotes, behind a blank. -/
  | blank
  /-- Outside of quotes, behind a backslash. -/
  | escape
  /-- Between single quotes. -/
  | single
  /-- Between single quotes, behind a backslash. -/
  | singleEscape
  /-- Between double quotes. -/
  | double
  /-- Between double quotes, behind a backslash. -/
  | doubleEscape
  deriving DecidableEq, Repr

namespace LineState

/-- Where a quote or a backslash outside of quotes leads to. -/
def opened (c : Char) : LineState :=
  match c with
  | '\\' => escape
  | '"' => double
  | '\'' => single
  | _ => plain

/-- Where a character leads to; nowhere if it begins a comment. Only the first of several blanks
counts as one. -/
def next? : LineState → Char → Option LineState
  | plain, c => some (if Text.isBlank c && c ≠ '\n' && c ≠ '\r' then blank else opened c)
  | blank, c => if c = '#' then none else some (opened c)
  | escape, _ => some plain
  | single, c => some (match c with
    | '\\' => singleEscape
    | '\'' => plain
    | _ => single)
  | singleEscape, _ => some single
  | double, c => some (match c with
    | '\\' => doubleEscape
    | '"' => plain
    | _ => double)
  | doubleEscape, _ => some double

/-- Reads a text: what is in front of a comment, and where the text leads to if there is no
comment. -/
def scan (state : LineState) : List Char → List Char × Option LineState
  | [] => ([], some state)
  | c :: rest =>
    match state.next? c with
    | none => ([], none)
    | some state =>
      let (kept, last) := state.scan rest
      (c :: kept, last)

end LineState

/-- The lines of a file, from its text between line breaks, each piece with its line break. The
text `begun` belongs to the first line already. A line that the file does not end is dropped,
unless only its line break is missing. -/
def joinLines (state : LineState) (begun : List Char) : List (List Char) → List (List Char)
  | [] => []
  | piece :: more =>
    let line := begun ++ piece
    -- Quotes in a line that is a comment open nothing.
    if (Text.trimStart line).head? = some '#' then joinLines .plain [] more
    else
      match state.scan piece with
      | (kept, none) => (begun ++ kept) :: joinLines .plain [] more
      | (_, some .plain) => line :: joinLines .plain [] more
      | (_, some state) => joinLines state line more

/-- The pieces of a file between line breaks, each with its line break. -/
def splitBreaks : List UInt8 → List (List UInt8)
  | [] => []
  | byte :: rest =>
    if byte = 10 then [byte] :: splitBreaks rest
    else
      match splitBreaks rest with
      | [] => [[byte]]
      | piece :: pieces => (byte :: piece) :: pieces

/-- The texts of the pieces of a file, up to one that is not valid UTF-8. -/
def decodePieces : List (List UInt8) → List (List Char)
  | [] => []
  | piece :: more =>
    match String.fromUTF8? ⟨piece.toArray⟩ with
    | none => []
    | some text => text.toList :: decodePieces more

/-- The pieces of a file without a byte order mark in front. -/
def dropByteOrderMark : List (List Char) → List (List Char)
  | ('\ufeff' :: piece) :: more => piece :: more
  | pieces => pieces

/-- The lines of a file. -/
def lines (bytes : ByteArray) : List (List Char) :=
  joinLines .plain [] (dropByteOrderMark (decodePieces (splitBreaks bytes.toList)))

end RunTrace.EnvFile
