import RunTrace.Json.Basic
import RunTrace.Decimal.Layout
import RunTrace.Decimal.Scaled

/-!
# What literals mean

The text of a string literal and the value of a number literal, and the literals that a text
or a value is written as. Texts and integers are read as they were written. Doubles are written with
digits that tell them apart, but reading takes a quick way that can be off in the last bits, and a
double that is not finite cannot be written.
-/

namespace RunTrace.Json

/-! ## String literals -/

/-- Whether a code unit is the first half of a surrogate pair. -/
def isHighSurrogate (value : UInt16) : Bool :=
  0xD800 ≤ value && value ≤ 0xDBFF

/-- Whether a code unit is the second half of a surrogate pair. -/
def isLowSurrogate (value : UInt16) : Bool :=
  0xDC00 ≤ value && value ≤ 0xDFFF

/-- The character that a surrogate pair stands for. -/
def joinSurrogates (high low : UInt16) : Char :=
  Char.ofNat (0x10000 + (high.toNat - 0xD800) * 0x400 + (low.toNat - 0xDC00))

namespace StringLiteral

/-- The error of the first half of a surrogate pair that is not followed by another escape:
only where the text ends, or in the escape itself, is it another problem. -/
def unpairedError (tear : Option StringTear) : SyntaxError :=
  match tear with
  | some .unterminated => .endInString
  | some .malformedHex => .invalidEscape
  | _ => .unpairedSurrogate

/-- The text of the pieces up to a tear, behind the characters already read, of which the
last comes first. -/
def readPieces (tear : Option StringTear) (done : List Char) :
    List StringPiece → Except SyntaxError (List Char)
  | [] =>
    match tear with
    | none => .ok done.reverse
    | some tear => .error tear.error
  | .char c :: rest => readPieces tear (c :: done) rest
  | .codeUnit value :: rest =>
    if isLowSurrogate value then .error .loneSurrogate
    else if isHighSurrogate value then
      match rest with
      | .codeUnit second :: rest =>
        if isLowSurrogate second then readPieces tear (joinSurrogates value second :: done) rest
        else .error .loneSurrogate
      | .char _ :: _ => .error .unpairedSurrogate
      | [] => .error (unpairedError tear)
    else readPieces tear (Char.ofNat value.toNat :: done) rest

/-- The text of a string literal. -/
def read (literal : StringLiteral) : Except SyntaxError String :=
  String.ofList <$> readPieces literal.tear [] literal.pieces

/-- The piece that writes a character: a hexadecimal escape for a control character without
a letter of its own. -/
def pieceOfChar (c : Char) : StringPiece :=
  if c < ' ' ∧ c ∉ ['\x08', '\x0c', '\n', '\r', '\t'] then .codeUnit c.toNat.toUInt16
  else .char c

/-- The literal that writes a text. -/
def ofText (text : String) : StringLiteral :=
  ⟨text.toList.map pieceOfChar, none⟩

end StringLiteral

/-! ## Number literals -/

/-- What a number literal is read as. -/
inductive Number where
  /-- A literal without point and exponent, in the range of 64-bit integers: up to `2 ^ 64 - 1`
  without a sign, and from `-2 ^ 63` to `-1` with one. -/
  | integer (value : Int)
  /-- Any other literal. -/
  | floating (value : Float)

namespace NumberLiteral

/-- The exponent that is written, zero where there is none. -/
def writtenExponent (literal : NumberLiteral) : Int :=
  match literal.exponent with
  | none => 0
  | some (.minus, ds) => -(Decimal.natOfDigits ds : Int)
  | some (_, ds) => Decimal.natOfDigits ds

/-- The magnitude of a number literal. -/
def magnitude (literal : NumberLiteral) : Decimal :=
  let fraction := literal.fraction.getD []
  ⟨Decimal.natOfDigits (literal.whole ++ fraction), literal.writtenExponent - fraction.length⟩

/-- The part of a number literal that its double is made of: the first digits, as many as there is
room for in a 64-bit word. The others count as zeros. -/
def leading (literal : NumberLiteral) : Decimal :=
  let (whole, left) := Decimal.takeDigits 0 literal.whole
  let (coefficient, left') := Decimal.takeDigits whole (literal.fraction.getD [])
  ⟨coefficient, literal.magnitude.exponent + (left.length + left'.length : Nat)⟩

/-- The double that a number literal is read as. -/
def toFloat (literal : NumberLiteral) : Float :=
  let magnitude := literal.leading.scaled
  if literal.negative then -magnitude else magnitude

/-- The integer that a literal without point and exponent stands for, if it is in range. A
zero with a sign is left out, as it is no integer. -/
def integer? (literal : NumberLiteral) : Option Int :=
  match literal.fraction, literal.exponent with
  | none, none =>
    let n := Decimal.natOfDigits literal.whole
    if literal.negative then
      if 1 ≤ n ∧ Int64.minValue.toInt ≤ -(n : Int) then some (-(n : Int)) else none
    else if n < UInt64.size then some n else none
  | _, _ => none

/-- The value of a number literal. A double that is not finite is an error. -/
def read (literal : NumberLiteral) : Except SyntaxError Number :=
  match literal.integer? with
  | some value => .ok (.integer value)
  | none =>
    if literal.toFloat.isFinite then .ok (.floating literal.toFloat) else .error .numberOutOfRange

/-- The literal that writes a natural number. -/
def ofNat (n : Nat) : NumberLiteral :=
  { negative := false, whole := Decimal.digits n, fraction := none, exponent := none }

/-- Doubles are written without exponent if the leading digit has an exponent between -5
and 15, and then always with a point. -/
def floatLayout : Decimal.Layout :=
  { positional := fun k => -5 ≤ k ∧ k ≤ 15, wholeEnding := ['.', '0'], tie := .toEven }

/-- The literal that writes a finite double with its shortest digits. -/
def ofFloat (x : Float) : NumberLiteral :=
  let d := Decimal.shortest floatLayout.tie x
  let ds := d.significantDigits
  let k := d.leadingExponent
  let negative := signBit x
  if floatLayout.positional k then
    let text := floatLayout.positionalText ds k
    { negative
      whole := text.takeWhile (· ≠ '.')
      fraction := some ((text.dropWhile (· ≠ '.')).drop 1)
      exponent := none }
  else
    { negative
      whole := ds.take 1
      fraction := if ds.length = 1 then none else some (ds.drop 1)
      exponent := some (if k < 0 then .minus else .plus, Decimal.digits k.natAbs) }

end NumberLiteral

end RunTrace.Json
