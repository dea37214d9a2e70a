/-!
# JSON documents

A JSON text as a tree. String and number literals are kept as they were written, because a
value that is skipped is checked less strictly than one that is read. A text that is not
well-formed also has a tree: the tree of all that was read before the text breaks off, with
a torn leaf at that place saying what was wrong there. So a document can be read in order,
and the first problem met, of whatever kind, is the one that is reported.
-/

namespace RunTrace

namespace Json

/-- What can be wrong with the text of a JSON document. -/
inductive SyntaxError where
  | endInValue
  | endInArray
  | endInObject
  | endInString
  | expectedValue
  | expectedWord
  | expectedColon
  | expectedArrayComma
  | expectedObjectComma
  | trailingComma
  | trailingCharacters
  | keyNotString
  | invalidNumber
  | numberOutOfRange
  | invalidEscape
  | controlCharacter
  | loneSurrogate
  | unpairedSurrogate
  | nestedTooDeep
  deriving DecidableEq, Repr

namespace SyntaxError

/-- The text shown for a syntax error. -/
def message : SyntaxError → String
  | endInValue => "EOF while parsing a value"
  | endInArray => "EOF while parsing a list"
  | endInObject => "EOF while parsing an object"
  | endInString => "EOF while parsing a string"
  | expectedValue => "expected value"
  | expectedWord => "expected ident"
  | expectedColon => "expected `:`"
  | expectedArrayComma => "expected `,` or `]`"
  | expectedObjectComma => "expected `,` or `\x7d`"
  | trailingComma => "trailing comma"
  | trailingCharacters => "trailing characters"
  | keyNotString => "key must be a string"
  | invalidNumber => "invalid number"
  | numberOutOfRange => "number out of range"
  | invalidEscape => "invalid escape"
  | controlCharacter => "control character (\\u0000-\\u001F) found while parsing a string"
  | loneSurrogate => "lone leading surrogate in hex escape"
  | unpairedSurrogate => "unexpected end of hex escape"
  | nestedTooDeep => "recursion limit exceeded"

end SyntaxError

/-- The places at which a text can break off outside of a string literal. -/
inductive Tear where
  /-- The text ends where a value should begin. -/
  | missingValue
  /-- A character that begins no value stands where a value should begin. -/
  | strayCharacter
  /-- One of the words `null`, `true` and `false` is misspelt, or the text ends inside it. -/
  | brokenWord (atEnd : Bool)
  /-- A number is malformed, or the text ends inside it. -/
  | brokenNumber (atEnd : Bool)
  /-- The text ends inside an array, where no value is due. -/
  | unclosedArray
  /-- Neither a comma nor a bracket follows an item. -/
  | missingArrayComma
  /-- A bracket directly follows the comma after an item. -/
  | arrayTrailingComma
  /-- Something other than a string stands where a key should begin. -/
  | strayKey
  /-- The text ends inside an object, before a key or after a key or a member. -/
  | unclosedObject
  /-- Neither a comma nor a brace follows a member. -/
  | missingObjectComma
  /-- A brace directly follows the comma after a member. -/
  | objectTrailingComma
  /-- The text ends directly after the comma that follows a member. -/
  | endAfterObjectComma
  /-- No colon follows a key. -/
  | missingColon
  deriving DecidableEq, Repr

namespace Tear

/-- The error that a tear is in a value that is read. -/
def whenRead : Tear → SyntaxError
  | missingValue => .endInValue
  | strayCharacter => .expectedValue
  | brokenWord atEnd => if atEnd then .endInValue else .expectedWord
  | brokenNumber atEnd => if atEnd then .endInValue else .invalidNumber
  | unclosedArray => .endInArray
  | missingArrayComma => .expectedArrayComma
  | arrayTrailingComma => .trailingComma
  | strayKey => .keyNotString
  | unclosedObject => .endInObject
  | missingObjectComma => .expectedObjectComma
  | objectTrailingComma => .trailingComma
  | endAfterObjectComma => .endInValue
  | missingColon => .expectedColon

/-- The error that a tear is in a value that is skipped. There a comma commits to another
item or member, and a number is only looked at digit by digit. -/
def whenSkipped : Tear → SyntaxError
  | brokenNumber _ => .invalidNumber
  | arrayTrailingComma => .expectedValue
  | objectTrailingComma => .keyNotString
  | endAfterObjectComma => .endInObject
  | other => other.whenRead

end Tear

/-- One piece of a string literal: a character, written raw or by a letter escape, or the
UTF-16 code unit of a hexadecimal escape. -/
inductive StringPiece where
  | char (c : Char)
  | codeUnit (value : UInt16)
  deriving DecidableEq, Repr

/-- How a string literal can break off. -/
inductive StringTear where
  | unterminated
  | controlCharacter
  | unknownEscape
  | malformedHex
  deriving DecidableEq, Repr

/-- The error that a broken string literal is. -/
def StringTear.error : StringTear → SyntaxError
  | unterminated => .endInString
  | controlCharacter => .controlCharacter
  | unknownEscape => .invalidEscape
  | malformedHex => .invalidEscape

/-- A string literal as written, up to its closing quote or to where it breaks off. -/
structure StringLiteral where
  /-- The pieces between the quotes. -/
  pieces : List StringPiece
  /-- Where the literal breaks off; nothing for a closed literal. -/
  tear : Option StringTear
  deriving DecidableEq, Repr

/-- The sign written in front of an exponent. -/
inductive ExponentSign where
  | none
  | plus
  | minus
  deriving DecidableEq, Repr

/-- A number literal as written. -/
structure NumberLiteral where
  /-- Whether a minus sign is written. -/
  negative : Bool
  /-- The digits before the point. -/
  whole : List Char
  /-- The digits after the point, if a point is written. -/
  fraction : Option (List Char)
  /-- The sign and the digits of the exponent, if one is written. -/
  exponent : Option (ExponentSign × List Char)
  deriving DecidableEq, Repr

end Json

mutual

/-- A JSON value, complete or broken off. -/
inductive Json where
  | null
  | boolean (value : Bool)
  | number (literal : Json.NumberLiteral)
  | string (literal : Json.StringLiteral)
  | array (items : List Json)
  | object (members : List Json.Member)
  /-- The place at which the text breaks off. -/
  | torn (tear : Json.Tear)

/-- A member of a JSON object, complete or broken off. -/
inductive Json.Member where
  | member (key : Json.StringLiteral) (value : Json)
  /-- The place at which the text breaks off. -/
  | torn (tear : Json.Tear)

end

namespace Json

/-- A whole text: its value, and whether anything but blanks follows it. -/
structure Document where
  /-- The value at the start of the text. -/
  root : Json
  /-- Whether more text follows the value. -/
  trailing : Bool

end Json

end RunTrace
