import RunTrace.Json.Literal

/-!
# Writing JSON

A document is written with one item or member per line, each level indented by two blanks;
an empty array or object takes no lines of its own.
-/

namespace RunTrace.Json

/-- The hexadecimal digit of a number below 16. -/
def hexDigit (n : Nat) : Char :=
  Nat.digitChar n

namespace StringPiece

/-- How a piece of a string literal is spelled. -/
def text : StringPiece → List Char
  | char '"' => ['\\', '"']
  | char '\\' => ['\\', '\\']
  | char '\x08' => ['\\', 'b']
  | char '\x0c' => ['\\', 'f']
  | char '\n' => ['\\', 'n']
  | char '\r' => ['\\', 'r']
  | char '\t' => ['\\', 't']
  | char c => [c]
  | codeUnit value =>
    let n := value.toNat
    ['\\', 'u', hexDigit (n / 4096), hexDigit (n / 256 % 16), hexDigit (n / 16 % 16),
      hexDigit (n % 16)]

end StringPiece

/-- How a closed string literal is spelled. -/
def StringLiteral.text (literal : StringLiteral) : List Char :=
  '"' :: literal.pieces.flatMap StringPiece.text ++ ['"']

/-- How the sign of an exponent is spelled. -/
def ExponentSign.text : ExponentSign → List Char
  | none => []
  | plus => ['+']
  | minus => ['-']

/-- How a number literal is spelled. -/
def NumberLiteral.text (literal : NumberLiteral) : List Char :=
  (if literal.negative then ['-'] else [])
    ++ literal.whole
    ++ (literal.fraction.elim [] fun ds => '.' :: ds)
    ++ (literal.exponent.elim [] fun (sign, ds) => 'e' :: sign.text ++ ds)

/-- The line break in front of something at a level of nesting. -/
def lineBreak (level : Nat) : List Char :=
  '\n' :: List.replicate (2 * level) ' '

mutual

/-- The text of a value that stands at a level of nesting. A torn leaf has no text. -/
def write (level : Nat) : Json → List Char
  | null => ['n', 'u', 'l', 'l']
  | boolean true => ['t', 'r', 'u', 'e']
  | boolean false => ['f', 'a', 'l', 's', 'e']
  | number literal => literal.text
  | string literal => literal.text
  | array [] => ['[', ']']
  | array (item :: items) =>
    '[' :: lineBreak (level + 1) ++ write (level + 1) item ++ writeItems (level + 1) items
      ++ lineBreak level ++ [']']
  | object [] => ['\x7b', '\x7d']
  | object (member :: members) =>
    '\x7b' :: lineBreak (level + 1) ++ writeMember (level + 1) member
      ++ writeMembers (level + 1) members ++ lineBreak level ++ ['\x7d']
  | torn _ => []

/-- The text of the items behind the first one. -/
def writeItems (level : Nat) : List Json → List Char
  | [] => []
  | item :: items => ',' :: lineBreak level ++ write level item ++ writeItems level items

/-- The text of a member. -/
def writeMember (level : Nat) : Member → List Char
  | .member key value => key.text ++ ':' :: ' ' :: write level value
  | .torn _ => []

/-- The text of the members behind the first one. -/
def writeMembers (level : Nat) : List Member → List Char
  | [] => []
  | member :: members =>
    ',' :: lineBreak level ++ writeMember level member ++ writeMembers level members

end

/-- The text of a document. -/
def text (document : Json) : String :=
  String.ofList (write 0 document)

end RunTrace.Json
