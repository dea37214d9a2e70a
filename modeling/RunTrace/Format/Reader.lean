import RunTrace.Format.ReadError
import RunTrace.Json.Reader
import RunTrace.Json.Skip

/-!
# Reading a trajectory file

A record is read from an object, with its fields as members in any order, or from an array,
with its fields as items in their order. Members with other keys are skipped. Everything is
read in the order of the text, so the first problem in the text is the one that is reported.
The number of arrays and objects that may be open at the same time is limited.
-/

namespace RunTrace.Format

/-- The number of arrays and objects that may be open at the same time. -/
def nestingLimit : Nat := 127

/-- The error of a text that is no JSON. -/
def malformed {α : Type} (error : Json.SyntaxError) : Except ReadError α :=
  .error (.malformed error)

/-- Takes over an error in the JSON of a text. -/
def liftJson {α : Type} (result : Except Json.SyntaxError α) : Except ReadError α :=
  result.mapError .malformed

/-- What a value is, for an error message. Arrays and objects are not looked into. -/
def found : Json → Except ReadError Found
  | .null => .ok .null
  | .boolean value => .ok (.boolean value)
  | .number literal => do
    match ← liftJson literal.read with
    | .integer value => return .integer value
    | .floating value => return .floating value
  | .string literal => .text <$> liftJson literal.read
  | .array _ => .ok .sequence
  | .object _ => .ok .map
  | .torn tear => malformed tear.whenRead

/-- The error of a value that is not what was expected. -/
def wrongType {α : Type} (expected : Expected) (value : Json) : Except ReadError α := do
  throw (.wrongType (← found value) expected)

/-! ## Values without fields -/

/-- Reads a string. -/
def readText (expected : Expected) : Json → Except ReadError String
  | .string literal => liftJson literal.read
  | other => wrongType expected other

/-- Reads a timestamp. -/
def readInstant (value : Json) : Except ReadError Timestamp := do
  (Timestamp.read (← readText .instant value)).mapError .timestamp

/-- Reads a natural number below a bound. -/
def readWord (bound : Nat) (expected : Expected) : Json → Except ReadError Nat
  | .number literal => do
    match ← liftJson literal.read with
    | .integer value =>
      if 0 ≤ value ∧ value < bound then return value.toNat
      else throw (.wordOutOfRange value expected)
    | .floating value => throw (.wrongType (.floating value) expected)
  | other => wrongType expected other

/-- Reads a double. -/
def readReal : Json → Except ReadError Float
  | .number literal => do
    let _ ← liftJson literal.read
    return literal.toFloat
  | other => wrongType .real other

/-- Reads the name of an outcome. -/
def readOutcomeName (name : String) : Except ReadError Outcome :=
  match Outcome.ofName? name with
  | some outcome => .ok outcome
  | none => .error (.unknownOutcome name)

/-- Reads an outcome from an object: its name is the key of the only member, which holds
null. -/
def readOutcomeMember : List Json.Member → Except ReadError Outcome
  | [] => malformed .expectedValue
  | .torn tear :: _ => malformed tear.whenRead
  | .member key value :: rest => do
    let outcome ← readOutcomeName (← liftJson key.read)
    match value with
    | .null => pure ()
    | other => wrongType .unit other
    match rest with
    | [] => return outcome
    | .torn .unclosedObject :: _ => malformed .endInObject
    | _ => malformed .expectedValue

/-- Reads an outcome. It is a name, or an object as long as another level may be opened. -/
def readOutcome (levels : Nat) : Json → Except ReadError Outcome
  | .string literal => do readOutcomeName (← liftJson literal.read)
  | .object members => if levels = 0 then malformed .nestedTooDeep else readOutcomeMember members
  -- The first character already tells that a broken word or number is no outcome.
  | .torn (.brokenWord _) | .torn (.brokenNumber _) => malformed .expectedValue
  | .torn tear => malformed tear.whenRead
  | _ => malformed .expectedValue

/-! ## Records -/

section Records

variable (read : (kind : Kind) → Json → Except ReadError kind.Value)

/-- Reads the member with a key into the field of that key. A member without a field is
skipped, and a second one for the same field is an error. -/
def Slots.readMember (key : String) (value : Json) :
    (fields : List Field) → Slots fields → Except ReadError (Slots fields)
  | [], () => liftJson value.skip
  | field :: fields, (slot, slots) =>
    if field.key = key then
      match slot with
      | none => do return (some (← read field.kind value), slots)
      | some _ => throw (.duplicateField key)
    else do return (slot, ← readMember key value fields slots)

/-- Reads the members of an object in order. -/
def Slots.readMembers (fields : List Field) (slots : Slots fields) :
    List Json.Member → Except ReadError (Slots fields)
  | [] => .ok slots
  | .member key value :: members => do
    let key ← liftJson key.read
    readMembers fields (← readMember read key value fields slots) members
  | .torn tear :: _ => malformed tear.whenRead

/-- The values of all fields. The first field that is absent and may not be is an error. -/
def Slots.values : (fields : List Field) → Slots fields → Except ReadError (Values fields)
  | [], () => .ok ()
  | field :: fields, (slot, slots) =>
    match slot.orElse fun _ => field.kind.default? with
    | some value => do return (value, ← values fields slots)
    | none => throw (.missingField field.key)

/-- Reads the values of the fields from the items of an array, and returns the items behind
them. The first field is at the given position of the record. -/
def Values.readItems (record : Record) (position : Nat) :
    (fields : List Field) → List Json → Except ReadError (Values fields × List Json)
  | [], items => .ok ((), items)
  | field :: fields, item :: items => do
    let value ← read field.kind item
    let (values, rest) ← readItems record (position + 1) fields items
    return ((value, values), rest)
  | field :: fields, [] =>
    match field.kind.default? with
    | some value => do
      let (values, rest) ← readItems record (position + 1) fields []
      return ((value, values), rest)
    | none => throw (.tooFewItems record position)

end Records

/-- Checks that an array ends behind the items of a record. -/
def checkItemsEnd : List Json → Except ReadError Unit
  | [] => .ok ()
  | .torn .unclosedArray :: _ => malformed .endInArray
  | .torn .arrayTrailingComma :: _ => malformed .trailingComma
  | _ => malformed .trailingCharacters

/-- Reads a value of a kind in a record in which the given number of levels may be opened.
The readers are for records directly in the record, and for those in a list. -/
def readKind (levels : Nat)
    (readRecord readItem : (record : Record) → Json → Except ReadError record.Value) :
    (kind : Kind) → Json → Except ReadError kind.Value
  | .text, value => readText .text value
  | .instant, value => readInstant value
  | .word32, value => UInt32.ofNat <$> readWord UInt32.size .word32 value
  | .word64, value => UInt64.ofNat <$> readWord UInt64.size .word64 value
  | .real, value => readReal value
  | .outcome, value => readOutcome levels value
  | .record record, value => readRecord record value
  | .optional _, .null => .ok none
  | .optional kind, value => some <$> readKind levels readRecord readItem kind value
  | .list record, .array items =>
    if levels = 0 then malformed .nestedTooDeep else items.mapM (readItem record)
  | .list _, value => wrongType .sequence value

/-- Reads a record where the given number of levels may be opened. -/
def readRecord : Nat → (record : Record) → Json → Except ReadError record.Value
  | 0, record, value =>
    match value with
    | .array _ | .object _ => malformed .nestedTooDeep
    | other => wrongType (.record record) other
  | levels + 1, record, value =>
    -- A list takes a level of its own, so the records in it are one level deeper.
    let readItem := match levels with
      | 0 => fun _ _ => malformed .nestedTooDeep
      | levels + 1 => readRecord levels
    let read := readKind levels (readRecord levels) readItem
    match value with
    | .object members => do
      let slots ← Slots.readMembers read record.fields (Slots.empty record.fields) members
      return record.make (← slots.values)
    | .array items => do
      let (values, rest) ← Values.readItems read record 0 record.fields items
      checkItemsEnd rest
      return record.make values
    | other => wrongType (.record record) other

/-- Reads a trajectory from a document. -/
def readDocument (document : Json.Document) : Except ReadError Trajectory := do
  let trajectory ← readRecord nestingLimit .trajectory document.root
  if document.trailing then malformed .trailingCharacters else return trajectory

/-- Reads a trajectory from a text. -/
def read (text : String) : Except ReadError Trajectory :=
  readDocument (.ofText text.toList)

end RunTrace.Format
