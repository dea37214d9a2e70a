/-!
# Decimal numbers and doubles

A non-negative decimal number is a coefficient times a power of ten. Every finite double is
one exactly, since a power of two is a power of ten times a power of five; and every decimal
number has a nearest double.
-/

namespace RunTrace

/-- The number `coefficient * 10 ^ exponent`. -/
structure Decimal where
  /-- The digits of the number, as a natural number. -/
  coefficient : Nat
  /-- The power of ten that the coefficient is multiplied with. -/
  exponent : Int
  deriving DecidableEq, Repr

namespace Decimal

/-- The digits of a natural number in base ten, the most significant first. -/
def digits (n : Nat) : List Char :=
  Nat.toDigits 10 n

/-- The text of a natural number in base ten. -/
def ofNat (n : Nat) : String :=
  String.ofList (digits n)

/-- The text of an integer in base ten. -/
def ofInt : Int → String
  | .ofNat n => ofNat n
  | .negSucc n => "-" ++ ofNat (n + 1)

/-- The natural number that a sequence of digits stands for. -/
def natOfDigits (ds : List Char) : Nat :=
  ds.foldl (fun n d => 10 * n + (d.toNat - '0'.toNat)) 0

/-- Which of two neighbours a number halfway between them is rounded to. -/
inductive Tie where
  /-- The even one. -/
  | toEven
  /-- The larger one. -/
  | up
  deriving DecidableEq, Repr

/-- Whether the number `q + remainder / unit`, which is less than `q + 1`, is rounded up. -/
def Tie.roundsUp (tie : Tie) (q remainder unit : Nat) : Bool :=
  if 2 * remainder = unit then
    match tie with
    | toEven => q % 2 ≠ 0
    | up => true
  else unit < 2 * remainder

/-- The digits of a coefficient without trailing zeros; zero is one digit. -/
def significantDigits (d : Decimal) : List Char :=
  match ((digits d.coefficient).reverse.dropWhile (· = '0')).reverse with
  | [] => ['0']
  | ds => ds

/-- The power of ten of the leading digit. -/
def leadingExponent (d : Decimal) : Int :=
  if d.coefficient = 0 then 0 else (digits d.coefficient).length - 1 + d.exponent

/-- The same number with the smallest coefficient that it can have. -/
def reduced (d : Decimal) : Decimal :=
  ⟨natOfDigits d.significantDigits, d.leadingExponent + 1 - d.significantDigits.length⟩

/-- The double nearest to a decimal number; infinite if it is too large. -/
def toFloat (d : Decimal) : Float :=
  .ofModel (Float.Model.ofScientific d.reduced.coefficient d.reduced.exponent)

end Decimal

/-- The parts of a finite double: it is `significand * 2 ^ exponent`, negated if `negative`. -/
structure BinaryParts where
  /-- The sign bit. -/
  negative : Bool
  /-- The significant bits, as a natural number. -/
  significand : Nat
  /-- The power of two that the significand is multiplied with. -/
  exponent : Int
  deriving DecidableEq, Repr

namespace BinaryParts

/-- The parts of the finite double with the given bits. -/
def ofBits (bits : UInt64) : BinaryParts :=
  let biased : Nat := (bits >>> 52).toNat % Nat.pow 2 11
  let stored : Nat := bits.toNat % Nat.pow 2 52
  { negative := bits >>> 63 == 1
    significand := if biased = 0 then stored else stored + Nat.pow 2 52
    exponent := if biased = 0 then -1074 else (biased : Int) - 1075 }

/-- The magnitude of a double as a decimal number, exactly: a negative power of two is that
power of ten times a power of five. -/
def magnitude (parts : BinaryParts) : Decimal :=
  match parts.exponent with
  | .ofNat e => ⟨parts.significand * Nat.pow 2 e, 0⟩
  | .negSucc e => ⟨parts.significand * Nat.pow 5 (e + 1), .negSucc e⟩

end BinaryParts

/-- The magnitude of a finite double as a decimal number, exactly. -/
def Decimal.ofFloat (x : Float) : Decimal :=
  (BinaryParts.ofBits x.toBits).magnitude

/-- Whether a double has its sign bit set, as negative numbers and the negative zero have. -/
def signBit (x : Float) : Bool :=
  (BinaryParts.ofBits x.toBits).negative

end RunTrace
