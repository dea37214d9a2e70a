import RunTrace.Trajectory

/-!
# The records of a trajectory file

A trajectory file is made of records of four kinds. Each kind has a fixed list of fields in a
fixed order, and each field holds a value of a fixed kind. Here the fields are listed, with
the type of what each of them holds, and how the values of all fields make up the record.
-/

namespace RunTrace.Format

/-- The kinds of records. -/
inductive Record where
  | trajectory
  | subcall
  | toolCall
  | tokenCounts
  deriving DecidableEq, Repr

/-- The name of a kind of records. -/
def Record.name : Record → String
  | trajectory => "Trajectory"
  | subcall => "Subcall"
  | toolCall => "ToolCall"
  | tokenCounts => "TokenCounts"

/-- What a record is read as. -/
abbrev Record.Value : Record → Type
  | trajectory => Trajectory
  | subcall => Subcall
  | toolCall => ToolCall
  | tokenCounts => TokenCounts

/-- The kinds of values that a field can hold. -/
inductive Kind where
  | text
  | instant
  | word32
  | word64
  | real
  | outcome
  | record (of : Record)
  /-- Nothing, or a value. -/
  | optional (of : Kind)
  /-- Any number of records. -/
  | list (of : Record)
  deriving DecidableEq, Repr

namespace Kind

/-- What a value of a kind is read as. -/
abbrev Value : Kind → Type
  | text => String
  | instant => Timestamp
  | word32 => UInt32
  | word64 => UInt64
  | real => Float
  | outcome => Outcome
  | record kind => kind.Value
  | optional kind => Option kind.Value
  | list kind => List kind.Value

/-- What a field holds that is left out. Only lists and optional values may be. -/
def default? : (kind : Kind) → Option kind.Value
  | optional _ => some none
  | list _ => some []
  | _ => none

end Kind

/-- A field of a record. -/
structure Field where
  /-- The key of the member that holds the field. -/
  key : String
  /-- What the field holds. -/
  kind : Kind
  deriving DecidableEq, Repr

/-- The fields of a kind of records, in order. -/
def Record.fields : Record → List Field
  | trajectory =>
    [⟨"runId", .text⟩, ⟨"totalSubcalls", .word32⟩, ⟨"maxDepth", .word32⟩,
      ⟨"totalTokens", .record .tokenCounts⟩, ⟨"totalCost", .real⟩,
      ⟨"totalDurationMs", .word64⟩, ⟨"subcalls", .list .subcall⟩]
  | subcall =>
    [⟨"id", .text⟩, ⟨"depth", .word32⟩, ⟨"name", .text⟩, ⟨"outcome", .outcome⟩,
      ⟨"startedAt", .instant⟩, ⟨"completedAt", .optional .instant⟩, ⟨"durationMs", .word64⟩,
      ⟨"tokens", .record .tokenCounts⟩, ⟨"cost", .real⟩, ⟨"toolCalls", .list .toolCall⟩,
      ⟨"children", .list .subcall⟩, ⟨"error", .optional .text⟩]
  | toolCall =>
    [⟨"id", .text⟩, ⟨"name", .text⟩, ⟨"outcome", .outcome⟩, ⟨"durationMs", .word64⟩]
  | tokenCounts => [⟨"input", .word64⟩, ⟨"output", .word64⟩]

/-- Values for all of the fields. -/
abbrev Values : List Field → Type
  | [] => Unit
  | field :: fields => field.kind.Value × Values fields

/-- Values for some of the fields. -/
abbrev Slots : List Field → Type
  | [] => Unit
  | field :: fields => Option field.kind.Value × Slots fields

/-- Values for none of the fields. -/
def Slots.empty : (fields : List Field) → Slots fields
  | [] => ()
  | _ :: fields => (none, empty fields)

/-- The record with the given values. -/
def Record.make : (record : Record) → Values record.fields → record.Value
  | trajectory, (runId, totalSubcalls, maxDepth, totalTokens, totalCost, totalDurationMs,
      subcalls, ()) =>
    { runId, totalSubcalls, maxDepth, totalTokens, totalCost, totalDurationMs
      subcalls := .ofTrees subcalls }
  | subcall, (id, depth, name, outcome, startedAt, completedAt, durationMs, tokens, cost,
      toolCalls, children, error, ()) =>
    { value :=
        { id, depth, name, outcome, startedAt, completedAt, durationMs, tokens, cost, toolCalls
          error }
      children := .ofTrees children }
  | toolCall, (id, name, outcome, durationMs, ()) => { id, name, outcome, durationMs }
  | tokenCounts, (input, output, ()) => { input, output }

end RunTrace.Format
