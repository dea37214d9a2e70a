import RunTrace.Text.Printable

/-!
# Quoted texts

The text of a string in a message: between double quotes, with escapes for quotes,
backslashes and characters that are not printable.
-/

namespace RunTrace.Text

/-- The digits of a code point in hexadecimal. -/
def codePointText (c : Char) : List Char :=
  Nat.toDigits 16 c.toNat

/-- How a character is written between quotes. -/
def quoteChar (c : Char) : List Char :=
  match c with
  | '"' => ['\\', '"']
  | '\\' => ['\\', '\\']
  | '\x00' => ['\\', '0']
  | '\t' => ['\\', 't']
  | '\n' => ['\\', 'n']
  | '\r' => ['\\', 'r']
  | c => if isPrintable c then [c] else ['\\', 'u', '\x7b'] ++ codePointText c ++ ['\x7d']

/-- A text between quotes. -/
def quoted (text : String) : String :=
  String.ofList ('"' :: text.toList.flatMap quoteChar ++ ['"'])

end RunTrace.Text
