import RunTrace.Json.Token

/-!
# Reading JSON

The reader takes the tokens of a text one at a time and keeps the arrays and objects that are
still open in a stack. Where a token does not fit, or the tokens end too soon, a torn leaf is
put there and everything open is closed around it.
-/

namespace RunTrace.Json

/-- An array or object in which a value is being read. -/
inductive Frame where
  /-- An array with the items before the value, the last of them first. -/
  | array (items : List Json)
  /-- An object with the members before the value, the last of them first, and its key. -/
  | object (members : List Member) (key : StringLiteral)

/-- What has been read of the innermost open array or object, or of the whole document. -/
inductive Position where
  /-- A value has to begin. -/
  | value
  /-- An array was opened. -/
  | firstItem
  /-- An item was read; the items, the last of them first. -/
  | afterItem (items : List Json)
  /-- An object was opened. -/
  | firstKey
  /-- A comma was read behind a member. -/
  | nextKey (members : List Member)
  /-- A key was read. -/
  | afterKey (members : List Member) (key : StringLiteral)
  /-- A member was read; the members, the last of them first. -/
  | afterMember (members : List Member)
  /-- The document's value was read. -/
  | complete (root : Json)

/-- Where the reader is when `value` has been read inside of the open frames. -/
def Position.after (value : Json) : List Frame → List Frame × Position
  | [] => ([], .complete value)
  | .array items :: outer => (outer, .afterItem (value :: items))
  | .object members key :: outer => (outer, .afterMember (.member key value :: members))

/-- The document in which `value` is the last thing inside of the open frames. -/
def enclose (value : Json) : List Frame → Json
  | [] => value
  | .array items :: outer => enclose (.array (value :: items).reverse) outer
  | .object members key :: outer => enclose (.object (.member key value :: members).reverse) outer

/-- The document that breaks off in an array. -/
def tearArray (items : List Json) (tear : Tear) (outer : List Frame) : Json :=
  enclose (.array (.torn tear :: items).reverse) outer

/-- The document that breaks off in an object. -/
def tearObject (members : List Member) (last : Member) (outer : List Frame) : Json :=
  enclose (.object (last :: members).reverse) outer

/-- The document of a text that ends at a position. -/
def Position.finish (outer : List Frame) : Position → Json
  | value => enclose (.torn .missingValue) outer
  | firstItem => tearArray [] .unclosedArray outer
  | afterItem items => tearArray items .unclosedArray outer
  | firstKey => tearObject [] (.torn .unclosedObject) outer
  | nextKey members => tearObject members (.torn .endAfterObjectComma) outer
  | afterKey members key => tearObject members (.member key (.torn .unclosedObject)) outer
  | afterMember members => tearObject members (.torn .unclosedObject) outer
  | complete root => root

/-- The value that a token is by itself. -/
def Token.scalar? : Token → Option Json
  | null => some .null
  | boolean b => some (.boolean b)
  | number literal => some (.number literal)
  | string literal => some (.string literal)
  | broken tear => some (.torn tear)
  | _ => none

/-- Whether a closing bracket at the next value would follow the comma after an item. -/
def followsItem : List Frame → Bool
  | .array _ :: _ => true
  | _ => false

/-- Reads the tokens that follow a position. -/
def readFrom (outer : List Frame) (position : Position) : List Token → Document
  | [] => ⟨position.finish outer, false⟩
  | token :: tokens =>
    match position, token with
    -- A value is due; behind a comma in an array, a bracket has an error of its own.
    | .value, .openArray => readFrom outer .firstItem tokens
    | .value, .openObject => readFrom outer .firstKey tokens
    | .value, token =>
      match token.scalar? with
      | some value => readFrom (Position.after value outer).1 (Position.after value outer).2 tokens
      | none =>
        match token with
        | .closeArray =>
          ⟨enclose (.torn (if followsItem outer then .arrayTrailingComma else .strayCharacter))
            outer, false⟩
        | _ => ⟨enclose (.torn .strayCharacter) outer, false⟩
    -- In an array, in front of its first item and behind an item.
    | .firstItem, .closeArray =>
      readFrom (Position.after (.array []) outer).1 (Position.after (.array []) outer).2 tokens
    | .firstItem, .openArray => readFrom (.array [] :: outer) .firstItem tokens
    | .firstItem, .openObject => readFrom (.array [] :: outer) .firstKey tokens
    | .firstItem, token =>
      match token.scalar? with
      | some value => readFrom outer (.afterItem [value]) tokens
      | none => ⟨tearArray [] .strayCharacter outer, false⟩
    | .afterItem items, .comma => readFrom (.array items :: outer) .value tokens
    | .afterItem items, .closeArray =>
      let value := Json.array items.reverse
      readFrom (Position.after value outer).1 (Position.after value outer).2 tokens
    | .afterItem items, _ => ⟨tearArray items .missingArrayComma outer, false⟩
    -- In an object, where a key is due; behind a comma it may not be closed.
    | .firstKey, .closeObject =>
      readFrom (Position.after (.object []) outer).1 (Position.after (.object []) outer).2 tokens
    | .firstKey, .string key => readFrom outer (.afterKey [] key) tokens
    | .firstKey, _ => ⟨tearObject [] (.torn .strayKey) outer, false⟩
    | .nextKey members, .string key => readFrom outer (.afterKey members key) tokens
    | .nextKey members, .closeObject =>
      ⟨tearObject members (.torn .objectTrailingComma) outer, false⟩
    | .nextKey members, _ => ⟨tearObject members (.torn .strayKey) outer, false⟩
    -- In an object, behind a key and behind a member.
    | .afterKey members key, .colon => readFrom (.object members key :: outer) .value tokens
    | .afterKey members key, _ =>
      ⟨tearObject members (.member key (.torn .missingColon)) outer, false⟩
    | .afterMember members, .comma => readFrom outer (.nextKey members) tokens
    | .afterMember members, .closeObject =>
      let value := Json.object members.reverse
      readFrom (Position.after value outer).1 (Position.after value outer).2 tokens
    | .afterMember members, _ =>
      ⟨tearObject members (.torn .missingObjectComma) outer, false⟩
    -- Nothing may follow the document.
    | .complete root, _ => ⟨root, true⟩

/-- The document of a sequence of tokens. -/
def Document.ofTokens (tokens : List Token) : Document :=
  readFrom [] .value tokens

/-- The document that a text spells. -/
def Document.ofText (text : List Char) : Document :=
  .ofTokens (Json.tokens text)

end RunTrace.Json
