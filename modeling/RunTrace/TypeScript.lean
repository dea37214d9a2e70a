/-!
# TypeScript declarations

Declarations of TypeScript types with their comments, and those of the records of a trajectory
file, for programs that work with such files.
-/

namespace RunTrace.TypeScript

/-- A type. -/
inductive Ty where
  | string
  | number
  | null
  /-- A string that is written out. -/
  | literal (value : String)
  /-- Another type that is declared. -/
  | reference (name : String)
  | array (item : Ty)
  /-- Either of two types. -/
  | union (left right : Ty)
  deriving DecidableEq, Repr

/-- The text of a type. -/
def Ty.text : Ty → String
  | string => "string"
  | number => "number"
  | null => "null"
  | literal value => "\"" ++ value ++ "\""
  | reference name => name
  | array item => "Array<" ++ item.text ++ ">"
  | union left right => left.text ++ " | " ++ right.text

/-- A property of an object type. -/
structure Property where
  name : String
  type : Ty
  /-- Whether the property may be absent. -/
  optional : Bool
  /-- The lines of the comment above the property. -/
  comment : List String
  deriving DecidableEq, Repr

/-- What a name is declared to be. -/
inductive Definition where
  | synonym (type : Ty)
  | object (properties : List Property)
  deriving DecidableEq, Repr

/-- The declaration of a type. -/
structure Declaration where
  name : String
  definition : Definition
  /-- The lines of the comment above the declaration. -/
  comment : List String
  deriving DecidableEq, Repr

/-- The text of a comment, with its lines; none for no lines. -/
def commentText (lines : List String) : String :=
  if lines.isEmpty then ""
  else "/**\n"
    ++ String.join (lines.map fun line => (if line.isEmpty then " *" else " * " ++ line) ++ "\n")
    ++ " */\n"

/-- The text of a property, which begins on a line of its own if it has a comment. -/
def Property.text (property : Property) : String :=
  (if property.comment.isEmpty then "" else "\n" ++ commentText property.comment)
    ++ property.name ++ (if property.optional then "?" else "") ++ ": " ++ property.type.text

/-- The text of a definition. -/
def Definition.text : Definition → String
  | synonym type => type.text
  | object properties =>
    "\x7b " ++ String.join (properties.map fun property => property.text ++ ", ") ++ "\x7d"

/-- The text of a declaration, without its comment. -/
def Declaration.text (declaration : Declaration) : String :=
  "type " ++ declaration.name ++ " = " ++ declaration.definition.text ++ ";"

/-- A property that is always present and has no comment. -/
def property (name : String) (type : Ty) : Property :=
  ⟨name, type, false, []⟩

/-- The outcome of a subcall or tool call. -/
def outcome : Declaration :=
  { name := "Outcome"
    definition := .synonym
      (.union (.literal "success") (.union (.literal "failure") (.literal "running")))
    comment := ["Terminal (or in-flight) state of a subcall or tool call."] }

/-- A tool call. -/
def toolCall : Declaration :=
  { name := "ToolCall"
    definition := .object [property "id" .string, property "name" .string,
      property "outcome" (.reference "Outcome"), property "durationMs" .number]
    comment := ["One tool invocation performed while a subcall executed."] }

/-- Token counts. -/
def tokenCounts : Declaration :=
  { name := "TokenCounts"
    definition := .object [property "input" .number, property "output" .number]
    comment := ["Input/output token pair, always displayed as their sum."] }

/-- A subcall. -/
def subcall : Declaration :=
  { name := "Subcall"
    definition := .object [
      ⟨"id", .string, false,
        ["Unique across the whole trajectory; keys expansion state and callbacks."]⟩,
      ⟨"depth", .number, false, ["Roots are 0, every child is parent + 1."]⟩,
      property "name" .string,
      property "outcome" (.reference "Outcome"),
      property "startedAt" .string,
      ⟨"completedAt", .union .string .null, true, []⟩,
      property "durationMs" .number,
      property "tokens" (.reference "TokenCounts"),
      property "cost" .number,
      property "toolCalls" (.array (.reference "ToolCall")),
      property "children" (.array (.reference "Subcall")),
      ⟨"error", .union .string .null, true, ["Present only when `outcome` is `failure`."]⟩]
    comment := ["One nested invocation. Owns its tool calls and its subtree."] }

/-- A trajectory. -/
def trajectory : Declaration :=
  { name := "Trajectory"
    definition := .object [property "runId" .string, property "totalSubcalls" .number,
      property "maxDepth" .number, property "totalTokens" (.reference "TokenCounts"),
      property "totalCost" .number, property "totalDurationMs" .number,
      property "subcalls" (.array (.reference "Subcall"))]
    comment := [
      "Full recorded trace of one agent run.",
      "",
      "The summary fields come from the producer and are displayed verbatim; see",
      "[`crate::stats::TreeStats`] for an audit-only recomputation."] }

/-- All declarations, by name. -/
def declarations : List Declaration :=
  [outcome, subcall, tokenCounts, toolCall, trajectory]

/-- The declaration of a name. -/
def declaration? (name : String) : Option Declaration :=
  declarations.find? (·.name == name)

end RunTrace.TypeScript
