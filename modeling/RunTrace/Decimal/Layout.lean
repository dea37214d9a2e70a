import RunTrace.Decimal.Shortest

/-!
# Writing doubles

A double is written with its shortest decimal number, laid out with or without an exponent,
or rounded to a fixed number of places.
-/

namespace RunTrace.Decimal

/-- How a decimal number is laid out. -/
structure Layout where
  /-- Whether a number is written without exponent, by the exponent of its leading digit. -/
  positional : Int → Bool
  /-- What is written behind a whole number. -/
  wholeEnding : List Char
  /-- Which of two shortest numbers is written for a double halfway between them. -/
  tie : Tie

/-- Digits with a point behind the one that has exponent zero; `k` is the exponent of the
first digit. -/
def Layout.positionalText (layout : Layout) (ds : List Char) (k : Int) : List Char :=
  match k with
  | .ofNat k =>
    match ds.drop (k + 1) with
    | [] => ds ++ List.replicate (k + 1 - ds.length) '0' ++ layout.wholeEnding
    | fraction => ds.take (k + 1) ++ '.' :: fraction
  | .negSucc k => ['0', '.'] ++ List.replicate k '0' ++ ds

/-- One digit before the point, and the exponent of that digit with its sign. -/
def exponentText (ds : List Char) (k : Int) : List Char :=
  let mantissa := match ds with
    | d :: fraction@(_ :: _) => d :: '.' :: fraction
    | whole => whole
  let sign := if k < 0 then '-' else '+'
  mantissa ++ 'e' :: sign :: digits k.natAbs

/-- The text of a decimal number. -/
def Layout.text (layout : Layout) (d : Decimal) : List Char :=
  let k := d.leadingExponent
  if layout.positional k then layout.positionalText d.significantDigits k
  else exponentText d.significantDigits k

/-- The layout without exponents, in which whole numbers look like integers. -/
def plain : Layout :=
  { positional := fun _ => true, wholeEnding := [], tie := .up }

/-- The text of a double that is not a number or is infinite. -/
def nonFiniteText (x : Float) : List Char :=
  if x.isNaN then ['N', 'a', 'N'] else (if signBit x then ['-'] else []) ++ ['i', 'n', 'f']

/-- A finite double with its sign. -/
def signed (x : Float) (magnitude : List Char) : List Char :=
  if signBit x then '-' :: magnitude else magnitude

/-- The text of a double with its shortest digits. -/
def Layout.float (layout : Layout) (x : Float) : String :=
  String.ofList
    (if x.isFinite then signed x (layout.text (shortest layout.tie x)) else nonFiniteText x)

/-- The whole number closest to `numerator / denominator`; halfway between two, the even one. -/
def roundDiv (numerator denominator : Nat) : Nat :=
  let q := numerator / denominator
  if Tie.toEven.roundsUp q (numerator % denominator) denominator then q + 1 else q

/-- The number of units of `10 ^ (-places)` closest to a decimal number. -/
def roundToPlaces (d : Decimal) (places : Nat) : Nat :=
  match d.exponent + places with
  | .ofNat e => d.coefficient * Nat.pow 10 e
  | .negSucc e => roundDiv d.coefficient (Nat.pow 10 (e + 1))

/-- The text of a number of units of `10 ^ (-places)`. -/
def fixedText (units places : Nat) : List Char :=
  let ds := digits units
  let padded := List.replicate (places + 1 - ds.length) '0' ++ ds
  let whole := padded.take (padded.length - places)
  if places = 0 then whole else whole ++ '.' :: padded.drop (padded.length - places)

/-- The text of a double with a fixed number of digits behind the point. The sign is that of
the double, also where all digits are zero. -/
def fixed (places : Nat) (x : Float) : String :=
  String.ofList (
    if x.isFinite then signed x (fixedText ((ofFloat x).roundToPlaces places) places)
    else nonFiniteText x)

end RunTrace.Decimal
