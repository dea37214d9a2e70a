import RunTrace.Decimal.Word
import RunTrace.Text.Alphanumeric
import RunTrace.Text.Blank

/-!
# Log entries

Messages that the program leaves for whoever runs it, and the filters that select them.
-/

namespace RunTrace

/-- How important a message is. -/
inductive LogLevel where
  | error
  | warn
  | info
  | debug
  | trace
  deriving DecidableEq, Repr

namespace LogLevel

/-- The name of a level. -/
def name : LogLevel → String
  | error => "ERROR"
  | warn => "WARN"
  | info => "INFO"
  | debug => "DEBUG"
  | trace => "TRACE"

/-- The number of a level; the more important a level, the smaller its number. -/
def rank : LogLevel → Nat
  | error => 1
  | warn => 2
  | info => 3
  | debug => 4
  | trace => 5

end LogLevel

/-- A message with its level. -/
structure LogEntry where
  level : LogLevel
  message : String
  deriving DecidableEq, Repr

/-- The text of an entry. -/
def LogEntry.text (entry : LogEntry) : String :=
  entry.level.name ++ " " ++ entry.message

namespace LogFilter

/-- One rule of a filter: for the sources whose name begins with a text, the messages up to a
rank are selected. -/
structure Directive where
  /-- What the name of a source has to begin with. -/
  source : String
  /-- The rank up to which messages are selected; zero for none. -/
  rank : Nat
  deriving DecidableEq, Repr

/-- The rank that a word stands for: the number of a rank, or in letters of any case the name of
a level or a word for none. -/
def rankOfWord? (word : String) : Option Nat :=
  match Decimal.readWord word with
  | .ok number => if number.toNat ≤ LogLevel.trace.rank then some number.toNat else none
  | .error _ =>
    [("off", 0), ("error", 1), ("warn", 2), ("info", 3), ("debug", 4), ("trace", 5)].lookup
      (String.ofList (word.toList.map Char.toLower))

/-- Whether a directive can begin with a character. -/
def canBegin (c : Char) : Bool :=
  Text.isAlphanumeric c || c = '-' || c = ':' || c = '_'

/-- The directive that a text spells: a source and a level with an equals sign between them, a
level for all sources, or a source of which everything is selected. -/
def Directive.ofText? (text : List Char) : Option Directive :=
  match text with
  | [] => none
  | c :: _ =>
    if !canBegin c then none
    else
      let left := String.ofList (text.takeWhile (· ≠ '='))
      match text.dropWhile (· ≠ '=') with
      | [] =>
        match rankOfWord? left with
        | some rank => some ⟨"", rank⟩
        | none => some ⟨left, LogLevel.trace.rank⟩
      | [_] => some ⟨left, LogLevel.trace.rank⟩
      | _ :: right => (rankOfWord? (String.ofList right)).map (⟨left, ·⟩)

/-- The parts of a text between commas. -/
def splitCommas (text : List Char) : List (List Char) :=
  text.foldr (fun c parts =>
    match c, parts with
    | ',', _ => [] :: parts
    | _, part :: parts => (c :: part) :: parts
    | _, [] => [[c]]) [[]]

/-- The directives that a text spells, with blanks around them or not. A text without any selects
errors only. -/
def ofText? (text : String) : Option (List Directive) :=
  match (splitCommas text.toList).filter (!·.isEmpty) with
  | [] => some [⟨"", LogLevel.error.rank⟩]
  | parts => parts.mapM (Directive.ofText? ∘ Text.trim)

/-- The rank up to which messages of a source are selected: that of the directive that names
most of the source, and of several such directives the last one. -/
def rankFor (directives : List Directive) (source : String) : Nat :=
  let best := directives.foldl (fun best directive =>
    if directive.source.toList.isPrefixOf source.toList then
      match best with
      | some (other : Directive) =>
        if other.source.length ≤ directive.source.length then some directive else best
      | none => some directive
    else best) none
  best.elim 0 (·.rank)

end LogFilter

end RunTrace
